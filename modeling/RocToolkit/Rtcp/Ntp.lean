import RocToolkit.Core.Slice

/-!
# RocToolkit.Rtcp.Ntp

NTP timestamps of `roc_packet/ntp.cpp` and `roc_rtcp/ntp.cpp`. An `ntp_timestamp_t` is a `UInt64`
with seconds in the high half; times and deltas in nanoseconds are integers.
-/

namespace Roc
namespace Packet

/-- `core::Second`. -/
def second : Nat := 1000000000

def unixEpoch : Nat := (70 * 365 + 17) * (24 * 3600)

def era1 : Nat := (66 * 365 + 16 + 37) * (24 * 3600) + 6 * 3600 + 28 * 60 + 16

def nanoseconds2Ntp (nsDelta : Int) : Except Fault UInt64 :=
  if nsDelta < 0 then .error (.panic "ntp: can not convert negative delta to ntp")
  else
    let seconds := nsDelta.toNat / second
    let nans := nsDelta.toNat - seconds * second
    let fraction := nans * 2 ^ 32 / second
    .ok (UInt64.ofNat (seconds % 2 ^ 32 * 2 ^ 32 + fraction % 2 ^ 32))

def ntp2Nanoseconds (ntpDelta : UInt64) : Int :=
  let hi := ntpDelta.toNat / 2 ^ 32
  let lo := ntpDelta.toNat % 2 ^ 32
  ((hi * second + lo * second / 2 ^ 32 : Nat) : Int)

def unix2Ntp (unixTime : Int) : Except Fault UInt64 :=
  if unixTime < (era1 * second : Nat) then nanoseconds2Ntp (unixTime + (unixEpoch * second : Nat))
  else nanoseconds2Ntp (unixTime - (era1 * second : Nat))

def ntp2Unix (ntpTime : UInt64) : Int :=
  if ntpTime &&& 0x8000000000000000 ≠ 0 then
    let unixEpochNtp : UInt64 := UInt64.ofNat unixEpoch <<< 32
    -- negative unix time (1968-1970)
    if ntpTime < unixEpochNtp then -ntp2Nanoseconds (unixEpochNtp - ntpTime)
    else ntp2Nanoseconds (ntpTime - unixEpochNtp)
  else ntp2Nanoseconds (ntpTime + UInt64.ofNat era1 <<< 32)

/-! ## Stream timestamps -/

/-- The arithmetic is that of `float`. -/
def streamTimestamp2Ns (ts : UInt32) (sampleRate : Nat) : Except Fault Int :=
  if sampleRate = 0 then .error (.panic "units: sample_rate should not be zero")
  else
    .ok (Float32.ofNat ts.toNat / Float32.ofNat sampleRate * Float32.ofNat second).round.toInt64.toInt

def ns2StreamTimestamp (ns : Int) (sampleRate : Nat) : Except Fault UInt32 :=
  if ns < 0 then .error (.panic "units: ns should not be negative")
  else if sampleRate = 0 then .error (.panic "units: sample_rate should not be zero")
  else
    -- the conversion saturates, as the source does with min() and max()
    .ok (Float32.ofInt ns / Float32.ofNat second * Float32.ofNat sampleRate).round.toUInt32

end Packet

namespace Rtcp

def maxDelay : UInt64 := 0x0000FFFFFFFFFFFF

def metricUnavail64 : UInt64 := 0xFFFFFFFFFFFFFFFF

def metricUnavail32 : UInt64 := 0x0000FFFFFFFF0000

def ntpClamp64 (value maxValue : UInt64) : UInt64 := if value > maxValue then maxValue else value

def ntpClamp32 (value maxValue : UInt64) : UInt64 :=
  let value := (value + 0x8000) &&& 0xFFFFFFFFFFFF0000
  let value := if value > maxValue &&& 0xFFFFFFFFFFFF0000 then maxValue &&& 0xFFFFFFFFFFFF0000
    else value
  value &&& 0x0000FFFFFFFF0000

/-- `std::abs(int64_t(a - b))`. -/
def ntpDistance (a b : UInt64) : Nat := (a - b).toBitVec.toInt.natAbs

def ntpExtend (base value : UInt64) : Except Fault UInt64 :=
  if value &&& 0xFFFF00000000FFFF ≠ 0 then .error (.panic "value should have only middle 32 bits")
  else
    let extended := (base &&& 0xFFFF000000000000) ||| value
    let forward := ((base - 0x0001000000000000) &&& 0xFFFF000000000000) ||| value
    let backward := ((base + 0x0001000000000000) &&& 0xFFFF000000000000) ||| value
    if ntpDistance extended base ≤ ntpDistance forward base ∧
        ntpDistance extended base ≤ ntpDistance backward base then .ok extended
    else if ntpDistance forward base ≤ ntpDistance backward base then .ok forward
    else .ok backward

/-- `NtpTimestamp32`: only the middle 32 bits are stored. -/
def ntp32Value (mid : UInt32) : UInt64 := mid.toUInt64 <<< 16

def ntp32SetValue (t : UInt64) : UInt32 := (t >>> 16).toUInt32

end Rtcp
end Roc
