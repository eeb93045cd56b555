import Mathlib.Data.List.TakeWhile
import RocToolkit.Core.Slice

/-!
# RocToolkit.Rtcp.Headers

The packed classes of `roc_rtcp/headers.h`. A record holds its fields in host order; its codec is
the memory layout of the class, field after field in network order. Packet headers and XR block
headers keep their raw bytes (`count`, `type`, `length`) and the accessors take them apart with the
shifts and masks of the source.
-/

namespace Roc.Rtcp

/-! ## Limits and constants -/

def maxPacketBlocks : Nat := 31

def maxTextLen : Nat := 255

def V2 : UInt8 := 2

def RTCP_SR : UInt8 := 200
def RTCP_RR : UInt8 := 201
def RTCP_SDES : UInt8 := 202
def RTCP_BYE : UInt8 := 203
def RTCP_XR : UInt8 := 207

def XR_RRTR : UInt8 := 4
def XR_DLRR : UInt8 := 5
def XR_MEASUREMENT_INFO : UInt8 := 14
def XR_DELAY_METRICS : UInt8 := 16
def XR_QUEUE_METRICS : UInt8 := 220

def SDES_CNAME : UInt8 := 1

/-! ## Bit fields and lengths -/

/-- Get bits from `v0`. -/
def getBitField (v0 shift mask : UInt8) : UInt8 := (v0 >>> shift) &&& mask

/-- Set bits in `v0`. -/
def setBitField (v0 v1 shift mask : UInt8) : UInt8 := (v0 &&& ~~~(mask <<< shift)) ||| ((v1 &&& mask) <<< shift)

def sizeToRtcpLength (x : Nat) : Except Fault UInt16 :=
  if x < 4 then .error (.panic "x < 4")
  else if x > 65535 then .error (.panic "x > uint16_t(-1)")
  else if x % 4 ≠ 0 then .error (.panic "x % 4 != 0")
  else .ok (UInt16.ofNat (x / 4 - 1))

def rtcpLengthToSize (x : UInt16) : Nat := (x.toNat + 1) * 4

/-- How much padding is needed to align `size` with 32 bits, at least `minPadding`. -/
def paddingLen (size minPadding : Nat) : Nat :=
  let sizeToPad := size + minPadding
  minPadding + (if sizeToPad % 4 ≠ 0 then 4 - sizeToPad % 4 else 0)

theorem add_paddingLen_mod (size minPadding : Nat) : (size + paddingLen size minPadding) % 4 = 0 := by
  simp only [paddingLen]
  split <;> omega

theorem rtcpLengthToSize_ge (x : UInt16) : 4 ≤ rtcpLengthToSize x := by
  unfold rtcpLengthToSize; omega

theorem rtcpLengthToSize_of {x : Nat} {w : UInt16} (h : sizeToRtcpLength x = .ok w) :
    rtcpLengthToSize w = x ∧ x ≤ 65532 := by
  unfold sizeToRtcpLength at h
  split at h
  · cases h
  · split at h
    · cases h
    · split at h
      · cases h
      · cases h
        unfold rtcpLengthToSize
        have : (UInt16.ofNat (x / 4 - 1)).toNat = x / 4 - 1 := by
          simp only [UInt16.toNat_ofNat']
          omega
        omega

/-! ## Packet header -/

structure PacketHeader where
  count : UInt8
  type : UInt8
  length : UInt16
deriving DecidableEq, Repr

namespace PacketHeader

def codec : Codec PacketHeader := (Codec.u8.pair (Codec.u8.pair Codec.be16)).iso
    (fun p => ⟨p.1, p.2.1, p.2.2⟩) (fun h => (h.count, h.type, h.length)) (fun _ => rfl)

@[simp] theorem codec_width : codec.width = 4 := rfl

def counter (h : PacketHeader) : Nat := (getBitField h.count 0 0x1F).toNat

def version (h : PacketHeader) : UInt8 := getBitField h.count 6 0x03

def hasPadding (h : PacketHeader) : Bool := getBitField h.count 5 0x01 != 0

def lenBytes (h : PacketHeader) : Nat := rtcpLengthToSize h.length

def reset (t : UInt8) : PacketHeader :=
  { count := setBitField 0 V2 6 0x03, type := t, length := 0 }

def setCounter (h : PacketHeader) (c : Nat) : Except Fault PacketHeader :=
  if c > maxPacketBlocks then .error (.panic "c > MaxPacketBlocks")
  else .ok { h with count := setBitField h.count (UInt8.ofNat c) 0 0x1F }

def incCounter (h : PacketHeader) : Except Fault PacketHeader := h.setCounter (h.counter + 1)

def setPadding (h : PacketHeader) (v : Bool) : PacketHeader :=
  { h with count := setBitField h.count (if v then 1 else 0) 5 0x01 }

def setLenBytes (h : PacketHeader) (len : Nat) : Except Fault PacketHeader :=
  match sizeToRtcpLength len with
  | .ok w => .ok { h with length := w }
  | .error e => .error e

theorem lenBytes_ge (h : PacketHeader) : 4 ≤ h.lenBytes := rtcpLengthToSize_ge h.length

theorem counter_le (h : PacketHeader) : h.counter ≤ 31 := by
  unfold counter getBitField
  rw [UInt8.toNat_and]
  exact Nat.and_le_right

end PacketHeader

/-! ## SR and RR -/

structure ReceptionReportBlock where
  ssrc : UInt32
  losses : UInt32
  lastSeq : UInt32
  jitter : UInt32
  lastSr : UInt32
  delayLastSr : UInt32
deriving DecidableEq, Repr

namespace ReceptionReportBlock

def codec : Codec ReceptionReportBlock := (Codec.be32.pair (Codec.be32.pair (Codec.be32.pair (Codec.be32.pair
    (Codec.be32.pair Codec.be32))))).iso
    (fun p => ⟨p.1, p.2.1, p.2.2.1, p.2.2.2.1, p.2.2.2.2.1, p.2.2.2.2.2⟩)
    (fun b => (b.ssrc, b.losses, b.lastSeq, b.jitter, b.lastSr, b.delayLastSr)) (fun _ => rfl)

@[simp] theorem codec_width : codec.width = 24 := rfl

end ReceptionReportBlock

structure ReceiverReportPacket where
  header : PacketHeader
  ssrc : UInt32
deriving DecidableEq, Repr

namespace ReceiverReportPacket

def codec : Codec ReceiverReportPacket :=
  (PacketHeader.codec.pair Codec.be32).iso (fun p => ⟨p.1, p.2⟩) (fun r => (r.header, r.ssrc)) (fun _ => rfl)

@[simp] theorem codec_width : codec.width = 8 := rfl

def reset : ReceiverReportPacket := ⟨.reset RTCP_RR, 0⟩

end ReceiverReportPacket

structure SenderReportPacket where
  header : PacketHeader
  ssrc : UInt32
  ntpTimestamp : UInt64
  rtpTimestamp : UInt32
  packetCnt : UInt32
  bytesCnt : UInt32
deriving DecidableEq, Repr

namespace SenderReportPacket

def codec : Codec SenderReportPacket := (PacketHeader.codec.pair (Codec.be32.pair (Codec.be64.pair (Codec.be32.pair
    (Codec.be32.pair Codec.be32))))).iso
    (fun p => ⟨p.1, p.2.1, p.2.2.1, p.2.2.2.1, p.2.2.2.2.1, p.2.2.2.2.2⟩)
    (fun s => (s.header, s.ssrc, s.ntpTimestamp, s.rtpTimestamp, s.packetCnt, s.bytesCnt))
    (fun _ => rfl)

@[simp] theorem codec_width : codec.width = 28 := rfl

def reset : SenderReportPacket := ⟨.reset RTCP_SR, 0, 0, 0, 0, 0⟩

end SenderReportPacket

/-! ## XR -/

structure XrPacket where
  header : PacketHeader
  ssrc : UInt32
deriving DecidableEq, Repr

namespace XrPacket

def codec : Codec XrPacket :=
  (PacketHeader.codec.pair Codec.be32).iso (fun p => ⟨p.1, p.2⟩) (fun r => (r.header, r.ssrc)) (fun _ => rfl)

@[simp] theorem codec_width : codec.width = 8 := rfl

def reset : XrPacket := ⟨.reset RTCP_XR, 0⟩

end XrPacket

structure XrBlockHeader where
  blockType : UInt8
  typeSpecific : UInt8
  length : UInt16
deriving DecidableEq, Repr

namespace XrBlockHeader

def codec : Codec XrBlockHeader := (Codec.u8.pair (Codec.u8.pair Codec.be16)).iso
    (fun p => ⟨p.1, p.2.1, p.2.2⟩) (fun h => (h.blockType, h.typeSpecific, h.length))
    (fun _ => rfl)

@[simp] theorem codec_width : codec.width = 4 := rfl

def reset (bt : UInt8) : XrBlockHeader := ⟨bt, 0, 0⟩

def lenBytes (h : XrBlockHeader) : Nat := rtcpLengthToSize h.length

def setLenBytes (h : XrBlockHeader) (len : Nat) : Except Fault XrBlockHeader :=
  match sizeToRtcpLength len with
  | .ok w => .ok { h with length := w }
  | .error e => .error e

theorem lenBytes_ge (h : XrBlockHeader) : 4 ≤ h.lenBytes := rtcpLengthToSize_ge h.length

end XrBlockHeader

structure XrRrtrBlock where
  header : XrBlockHeader
  ntpTimestamp : UInt64
deriving DecidableEq, Repr

namespace XrRrtrBlock

def codec : Codec XrRrtrBlock := (XrBlockHeader.codec.pair Codec.be64).iso (fun p => ⟨p.1, p.2⟩)
    (fun b => (b.header, b.ntpTimestamp)) (fun _ => rfl)

@[simp] theorem codec_width : codec.width = 12 := rfl

def reset : XrRrtrBlock := ⟨.reset XR_RRTR, 0⟩

end XrRrtrBlock

structure XrDlrrSubblock where
  ssrc : UInt32
  lastRr : UInt32
  delayLastRr : UInt32
deriving DecidableEq, Repr

namespace XrDlrrSubblock

def codec : Codec XrDlrrSubblock := (Codec.be32.pair (Codec.be32.pair Codec.be32)).iso (fun p => ⟨p.1, p.2.1, p.2.2⟩)
    (fun b => (b.ssrc, b.lastRr, b.delayLastRr)) (fun _ => rfl)

@[simp] theorem codec_width : codec.width = 12 := rfl

end XrDlrrSubblock

structure XrDlrrBlock where
  header : XrBlockHeader
deriving DecidableEq, Repr

namespace XrDlrrBlock

def codec : Codec XrDlrrBlock := XrBlockHeader.codec.iso (fun h => ⟨h⟩) (fun b => b.header) (fun _ => rfl)

@[simp] theorem codec_width : codec.width = 4 := rfl

def reset : XrDlrrBlock := ⟨.reset XR_DLRR⟩

def numSubblocks (b : XrDlrrBlock) : Nat := (b.header.lenBytes - 4) / 12

end XrDlrrBlock

structure XrMeasurementInfoBlock where
  header : XrBlockHeader
  ssrc : UInt32
  reserved : UInt16
  firstSeq : UInt16
  intervalFirstSeq : UInt32
  intervalLastSeq : UInt32
  intervalDuration : UInt32
  cumDuration : UInt64
deriving DecidableEq, Repr

namespace XrMeasurementInfoBlock

def codec : Codec XrMeasurementInfoBlock := (XrBlockHeader.codec.pair (Codec.be32.pair (Codec.be16.pair (Codec.be16.pair
    (Codec.be32.pair (Codec.be32.pair (Codec.be32.pair Codec.be64))))))).iso
    (fun p => ⟨p.1, p.2.1, p.2.2.1, p.2.2.2.1, p.2.2.2.2.1, p.2.2.2.2.2.1, p.2.2.2.2.2.2.1, p.2.2.2.2.2.2.2⟩)
    (fun b => (b.header, b.ssrc, b.reserved, b.firstSeq, b.intervalFirstSeq, b.intervalLastSeq,
      b.intervalDuration, b.cumDuration)) (fun _ => rfl)

@[simp] theorem codec_width : codec.width = 32 := rfl

def reset : XrMeasurementInfoBlock := ⟨.reset XR_MEASUREMENT_INFO, 0, 0, 0, 0, 0, 0, 0⟩

end XrMeasurementInfoBlock

structure XrDelayMetricsBlock where
  header : XrBlockHeader
  ssrc : UInt32
  meanRtt : UInt32
  minRtt : UInt32
  maxRtt : UInt32
  e2eLatency : UInt64
deriving DecidableEq, Repr

namespace XrDelayMetricsBlock

def codec : Codec XrDelayMetricsBlock := (XrBlockHeader.codec.pair (Codec.be32.pair (Codec.be32.pair (Codec.be32.pair
    (Codec.be32.pair Codec.be64))))).iso
    (fun p => ⟨p.1, p.2.1, p.2.2.1, p.2.2.2.1, p.2.2.2.2.1, p.2.2.2.2.2⟩)
    (fun b => (b.header, b.ssrc, b.meanRtt, b.minRtt, b.maxRtt, b.e2eLatency)) (fun _ => rfl)

@[simp] theorem codec_width : codec.width = 28 := rfl

def reset : XrDelayMetricsBlock := ⟨.reset XR_DELAY_METRICS, 0, 0xFFFFFFFF, 0xFFFFFFFF, 0xFFFFFFFF, 0xFFFFFFFFFFFFFFFF⟩

end XrDelayMetricsBlock

structure XrQueueMetricsBlock where
  header : XrBlockHeader
  ssrc : UInt32
  niqLatency : UInt32
  niqStalling : UInt32
deriving DecidableEq, Repr

namespace XrQueueMetricsBlock

def codec : Codec XrQueueMetricsBlock := (XrBlockHeader.codec.pair (Codec.be32.pair (Codec.be32.pair Codec.be32))).iso
    (fun p => ⟨p.1, p.2.1, p.2.2.1, p.2.2.2⟩)
    (fun b => (b.header, b.ssrc, b.niqLatency, b.niqStalling)) (fun _ => rfl)

@[simp] theorem codec_width : codec.width = 16 := rfl

def reset : XrQueueMetricsBlock := ⟨.reset XR_QUEUE_METRICS, 0, 0xFFFFFFFF, 0xFFFFFFFF⟩

end XrQueueMetricsBlock

/-! ## SDES and BYE -/

structure SdesItemHeader where
  type : UInt8
  len : UInt8
deriving DecidableEq, Repr

namespace SdesItemHeader

def codec : Codec SdesItemHeader :=
  (Codec.u8.pair Codec.u8).iso (fun p => ⟨p.1, p.2⟩) (fun h => (h.type, h.len)) (fun _ => rfl)

@[simp] theorem codec_width : codec.width = 2 := rfl

end SdesItemHeader

/-- Text handed over as `const char*`: it ends before its first zero byte. -/
structure CString where
  bytes : List UInt8
  nul_free : (0 : UInt8) ∉ bytes
deriving DecidableEq, Repr

namespace CString

def empty : CString := ⟨[], List.not_mem_nil⟩

def ofBuffer (l : List UInt8) : CString := ⟨l.takeWhile (· ≠ 0), by
    intro h
    have := List.mem_takeWhile_imp h
    simp at this⟩

def length (s : CString) : Nat := s.bytes.length

theorem ofBuffer_length_le (l : List UInt8) : (ofBuffer l).length ≤ l.length := (List.takeWhile_prefix _).length_le

theorem ofBuffer_bytes (s : CString) : ofBuffer s.bytes = s := by
  obtain ⟨l, h⟩ := s
  have : l.takeWhile (· ≠ 0) = l := by
    rw [List.takeWhile_eq_self_iff]
    intro x hx
    have : x ≠ 0 := fun e => h (e ▸ hx)
    simpa using this
  simp only [ofBuffer, this]

end CString

structure SdesChunk where
  ssrc : UInt32
deriving DecidableEq, Repr

structure SdesItem where
  type : UInt8
  text : CString
deriving DecidableEq, Repr

/-! ## Parsing

The SDES, BYE and XR traversers begin alike: they check the type and the length of the packet and
cut the padding off. SDES and BYE read texts alike. -/

/-- Subtraction of `size_t`. -/
def sizeSub (a b : Nat) : Nat := (a + 2 ^ 64 - b) % 2 ^ 64

open Roc.Core (Slice)

/-- The text of `len` bytes at `pos`, copied to a buffer of `MaxTextLen` bytes and a terminating
zero. -/
def readText (buf : Slice) (pos len : Nat) : Except Fault CString := do
  let textLen := min (min len (buf.size - pos)) maxTextLen
  let text ← buf.copy pos textLen
  return CString.ofBuffer text

/-- The string in the `len` bytes at `pos`. -/
def textAt (buf : Slice) (pos len : Nat) : CString := CString.ofBuffer ((buf.buf.drop (buf.off + pos)).take len)

theorem textAt_length_le (buf : Slice) (pos len : Nat) : (textAt buf pos len).length ≤ len :=
  Nat.le_trans (CString.ofBuffer_length_le _) (by rw [List.length_take]; omega)

variable {buf : Slice}

theorem readText_ok {pos : Nat} {len : UInt8} (h : pos + len.toNat ≤ buf.size) :
    readText buf pos len.toNat = .ok (textAt buf pos len.toNat) := by
  have hlen : min (min len.toNat (buf.size - pos)) maxTextLen = len.toNat := by
    have := len.toNat_lt
    unfold maxTextLen
    omega
  have hcopy := Slice.copy_ok (s := buf) (i := pos) (n := len.toNat) h
  simp only [readText, hlen, hcopy, ok_bind, pure_eq_ok, textAt]

/-- The head of `parse`: the header and the slice without padding, or nothing if the packet is
refused. SDES and BYE are `counted`, XR does not use its counter. -/
def parsePacket (buf : Slice) (fixed : Nat) (type : UInt8) (counted : Bool) :
    Except Fault (Option (PacketHeader × Slice)) := do
  if buf.size < fixed then
    return none
  let header ← buf.read PacketHeader.codec 0
  if header.type ≠ type then
    return none
  let packetLen := header.lenBytes
  if packetLen > buf.size then
    return none
  if counted ∧ header.counter > maxPacketBlocks then
    return none
  if header.hasPadding then
    let paddingLen ← buf.read Codec.u8 (packetLen - 1)
    if paddingLen.toNat < 1 ∨ paddingLen.toNat > sizeSub packetLen fixed then
      return none
    let slice ← buf.subslice 0 (sizeSub packetLen paddingLen.toNat)
    return some (header, slice)
  return some (header, buf)

variable {fixed : Nat}

open PacketHeader

theorem parsePacket_plain {header : PacketHeader} {counted : Bool}
    (h4 : 4 ≤ fixed) (hh : buf.peek codec 0 = header) (hlen : header.lenBytes = buf.size)
    (hfit : fixed ≤ buf.size) (hp : header.hasPadding = false) :
    parsePacket buf fixed header.type counted = .ok (some (header, buf)) := by
  have hcount : ¬ (counted = true ∧ header.counter > maxPacketBlocks) := fun h => Nat.not_lt.mpr (counter_le _) h.2
  unfold parsePacket
  rw [if_neg (by omega), Slice.read_ok (by rw [codec_width]; omega), hh]
  simp only [ok_bind]
  rw [if_neg (by simp), if_neg (by omega), if_neg hcount, if_neg (by rw [hp]; simp)]
  rfl

end Roc.Rtcp
