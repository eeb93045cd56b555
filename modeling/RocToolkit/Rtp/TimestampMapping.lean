import Mathlib.Algebra.Order.Ring.Rat
import Mathlib.Tactic.Linarith
import RocToolkit.Lib.Loop
import RocToolkit.Lib.Wrap
import RocToolkit.Rtp.Filter

/-!
# RocToolkit.Rtp.TimestampMapping

Capture timestamps are not in RTP packets. `rtp::TimestampExtractor` of the sender keeps the capture timestamp and the
stream timestamp of one packet and extrapolates them to the time of each sender report; `rtp::TimestampInjector` of
the receiver extrapolates from the last report back to each packet. Conversions between samples and nanoseconds
round, reports get lost, are repeated and come late, and stream timestamps wrap. What a packet gets in the end is its
capture time up to the sum of the errors of one packet, one report and three roundings.
-/

namespace Roc.Rtp

open Wrap

open Roc.Packet (diff32)

/-- `ns_2_stream_timestamp_delta` and `stream_timestamp_delta_2_ns` of a sample specification. -/
structure Conversion where
  ns2Delta : Int → Int
  delta2Ns : Int → Int

structure TimestampExtractor where
  hasTs : Bool := false
  captTs : Int := 0
  rtpTs : UInt32 := 0
deriving DecidableEq, Repr

namespace TimestampExtractor

/-- `write`, up to the next writer. -/
def write (e : TimestampExtractor) : Option TimedRtp → Except Fault TimestampExtractor
  | none => .error (.panic "timestamp extractor: unexpected non-rtp packet")
  | some rtp =>
    if rtp.captureTimestamp < 0 then .error (.panic "timestamp extractor: unexpected negative cts in packet")
    else if rtp.captureTimestamp ≠ 0 then .ok ⟨true, rtp.captureTimestamp, rtp.streamTimestamp⟩
    else .ok e

def getMapping (conv : Conversion) (e : TimestampExtractor) (captureTs : Int) : Except Fault UInt32 :=
  if captureTs ≤ 0 then .error (.panic "timestamp extractor: unexpected negative cts in mapping request")
  else if e.hasTs = false then
    .error (.panic "timestamp extractor: attempt to get mapping before it becomes available")
  else .ok (e.rtpTs + ⟨BitVec.ofInt 32 (conv.ns2Delta (captureTs - e.captTs))⟩)

variable {e e' : TimestampExtractor}

theorem write_ok {rtp : TimedRtp} (h : e.write (some rtp) = .ok e') :
    e' = if rtp.captureTimestamp = 0 then e else ⟨true, rtp.captureTimestamp, rtp.streamTimestamp⟩ := by
  simp only [write] at h
  split at h
  · cases h
  · split at h <;> cases h <;> simp_all

theorem getMapping_ok {conv : Conversion} {captureTs : Int} {rtpTs : UInt32}
    (h : e.getMapping conv captureTs = .ok rtpTs) :
    e.hasTs = true ∧ rtpTs = e.rtpTs + ⟨BitVec.ofInt 32 (conv.ns2Delta (captureTs - e.captTs))⟩ := by
  simp only [getMapping] at h
  split at h
  · cases h
  · split at h <;> cases h
    simp_all

end TimestampExtractor

structure TimestampInjector where
  hasTs : Bool := false
  captTs : Int := 0
  rtpTs : UInt32 := 0
  nDrops : Nat := 0
deriving DecidableEq, Repr

namespace TimestampInjector

/-- `read`, of a packet that the reader before it has returned. -/
def read (conv : Conversion) (i : TimestampInjector) : Option TimedRtp → Except Fault TimedRtp
  | none => .error (.panic "timestamp injector: unexpected non-rtp packet")
  | some rtp =>
    if rtp.captureTimestamp ≠ 0 then .error (.panic "timestamp injector: unexpected non-zero cts in packet")
    else if i.hasTs then
      .ok { rtp with captureTimestamp := i.captTs + conv.delta2Ns (diff32 rtp.streamTimestamp i.rtpTs) }
    else .ok rtp

def updateMapping (i : TimestampInjector) (captureTs : Int) (rtpTs : UInt32) : TimestampInjector :=
  if captureTs ≤ 0 then { i with nDrops := i.nDrops + 1 } else { i with hasTs := true, captTs := captureTs, rtpTs }

end TimestampInjector

/-! ## Sender and receiver -/

/-- A mapping in a sender report, and the true position in the stream that its timestamp stands for. -/
structure Mapping where
  time : Int
  rtpTs : UInt32
  position : Int

/-- Both ends; `kept` and `mapped` are the positions that their timestamps stand for. -/
structure Link where
  extractor : TimestampExtractor := {}
  injector : TimestampInjector := {}
  reports : List Mapping := []
  kept : Int := 0
  mapped : Int := 0

inductive Event where
  | send (rtp : TimedRtp) (position : Int)
  | report (time : Int)
  -- the time has been to NTP format and back
  | deliver (m : Mapping) (time : Int)

inductive Link.Step (conv : Conversion) : Link → Event → Link → Prop where
  | send {l : Link} {rtp : TimedRtp} {x : Int} {e : TimestampExtractor} (h : l.extractor.write (some rtp) = .ok e) :
      Step conv l (.send rtp x)
        { l with extractor := e, kept := if rtp.captureTimestamp = 0 then l.kept else x }
  | report {l : Link} {time : Int} {rtpTs : UInt32} (h : l.extractor.getMapping conv time = .ok rtpTs) :
      Step conv l (.report time) { l with
        reports := ⟨time, rtpTs, l.kept + conv.ns2Delta (time - l.extractor.captTs)⟩ :: l.reports }
  | deliver {l : Link} {m : Mapping} {time : Int} (h : m ∈ l.reports) :
      Step conv l (.deliver m time) { l with
        injector := l.injector.updateMapping time m.rtpTs
        mapped := if time ≤ 0 then l.mapped else m.position }

/-- Samples are captured at a constant rate. -/
structure CaptureClock where
  start : ℚ
  period : ℚ

def CaptureClock.time (clock : CaptureClock) (x : Int) : ℚ := clock.start + x * clock.period

/-- How far timestamps, both conversions and the time of a report may be off. -/
structure Errors where
  stamp : ℚ
  toSamples : ℚ
  toNs : ℚ
  ntp : ℚ

def Within (conv : Conversion) (clock : CaptureClock) (E : Errors) (l : Link) : Event → Prop
  | .send rtp x => LowBits rtp.streamTimestamp.toBitVec x ∧
      (rtp.captureTimestamp ≠ 0 → |rtp.captureTimestamp - clock.time x| ≤ E.stamp)
  | .report time =>
      |conv.ns2Delta (time - l.extractor.captTs) * clock.period - (time - l.extractor.captTs)| ≤ E.toSamples
  | .deliver m time => |(time : ℚ) - m.time| ≤ E.ntp

def Belongs (clock : CaptureClock) (captTs : Int) (rtpTs : UInt32) (x : Int) (error : ℚ) : Prop :=
  LowBits rtpTs.toBitVec x ∧ |captTs - clock.time x| ≤ error

structure Inv (clock : CaptureClock) (E : Errors) (l : Link) : Prop where
  extractor : l.extractor.hasTs = true → Belongs clock l.extractor.captTs l.extractor.rtpTs l.kept E.stamp
  reports : ∀ m ∈ l.reports, Belongs clock m.time m.rtpTs m.position (E.stamp + E.toSamples)
  injector : l.injector.hasTs = true →
    Belongs clock l.injector.captTs l.injector.rtpTs l.mapped (E.stamp + E.toSamples + E.ntp)

variable {conv : Conversion} {clock : CaptureClock} {E : Errors} {l l' : Link} {e : Event}

/-- A mapping goes along the line that the clock is, up to the rounding of the samples. -/
theorem Belongs.extrapolate {captTs time : Int} {rtpTs : UInt32} {x n : Int} {error rounding : ℚ}
    (h : Belongs clock captTs rtpTs x error) (hn : |n * clock.period - (time - captTs)| ≤ rounding) :
    Belongs clock time (rtpTs + ⟨BitVec.ofInt 32 n⟩) (x + n) (error + rounding) := by
  refine ⟨h.1.add n, ?_⟩
  have hx := abs_le.mp h.2
  have hn := abs_le.mp hn
  rw [CaptureClock.time] at hx ⊢
  push_cast
  rw [abs_le]
  constructor <;> linarith [hx.1, hx.2, hn.1, hn.2]

theorem Inv.step (h : Inv clock E l) (hok : Within conv clock E l e) (hs : l.Step conv e l') : Inv clock E l' := by
  cases hs with
  | @send rtp x extractor hwrite =>
    obtain rfl := TimestampExtractor.write_ok hwrite
    refine ⟨fun hhas => ?_, h.reports, h.injector⟩
    by_cases hzero : rtp.captureTimestamp = 0
    · simp only [if_pos hzero] at hhas ⊢
      exact h.extractor hhas
    · simp only [if_neg hzero]
      exact ⟨hok.1, hok.2 hzero⟩
  | @report time rtpTs hget =>
    obtain ⟨hhas, rfl⟩ := TimestampExtractor.getMapping_ok hget
    refine ⟨h.extractor, fun m hm => ?_, h.injector⟩
    rcases List.mem_cons.mp hm with rfl | hm
    · exact (h.extractor hhas).extrapolate hok
    · exact h.reports m hm
  | @deliver m time hm =>
    refine ⟨h.extractor, h.reports, fun hhas => ?_⟩
    unfold TimestampInjector.updateMapping at hhas ⊢
    dsimp only at hhas ⊢
    split at hhas
    · next hle =>
      simp only [if_pos hle]
      exact h.injector hhas
    · next hgt =>
      simp only [if_neg hgt]
      obtain ⟨hbits, htime⟩ := h.reports m hm
      refine ⟨hbits, (abs_sub_le _ (m.time : ℚ) _).trans ?_⟩
      have hntp : |(time : ℚ) - m.time| ≤ E.ntp := hok
      linarith

/-- In every run of sender and receiver, whichever reports arrive and in whatever order: a packet less than half the
range of timestamps away from the last report that has arrived gets the capture timestamp that its sender gave it, up
to the error of one packet and one report and the roundings. -/
theorem captureTimestamp_carried (h : Reaches (· = {}) (Link.Step conv) (Within conv clock E) l)
    (hhas : l.injector.hasTs = true) {rtp : TimedRtp} {y : Int} (hbits : LowBits rtp.streamTimestamp.toBitVec y)
    (hzero : rtp.captureTimestamp = 0) (hlow : -2147483648 ≤ y - l.mapped) (hhigh : y - l.mapped < 2147483648)
    (hround : |conv.delta2Ns (y - l.mapped) - (y - l.mapped) * clock.period| ≤ E.toNs) :
    ∃ rtp', l.injector.read conv (some rtp) = .ok rtp' ∧ rtp'.toRtp = rtp.toRtp ∧
      |rtp'.captureTimestamp - clock.time y| ≤ E.stamp + E.toSamples + E.ntp + E.toNs := by
  have hinv : Inv clock E l := by
    refine h.invariant ?_ fun _ _ _ hi hok hs => hi.step hok hs
    rintro _ rfl
    exact ⟨nofun, nofun, nofun⟩
  obtain ⟨hmapped, htime⟩ := hinv.injector hhas
  have hdiff : diff32 rtp.streamTimestamp l.injector.rtpTs = y - l.mapped :=
    toInt_sub hbits hmapped (by omega) (by omega)
  refine ⟨{ rtp with captureTimestamp := l.injector.captTs + conv.delta2Ns (y - l.mapped) }, ?_, rfl, ?_⟩
  · simp [TimestampInjector.read, hzero, hhas, hdiff]
  · have ht := abs_le.mp htime
    have hr := abs_le.mp hround
    rw [CaptureClock.time] at ht ⊢
    push_cast
    rw [abs_le]
    constructor <;> linarith [ht.1, ht.2, hr.1, hr.2]

/-- Timestamps wrap between the packet that the report was made from and the one that it is used for, and the errors
add up: 701 ns are 300 of the packet, 400 of the samples and one of the report. -/
theorem captureTimestamp_carried_wrapped : ∃ rtp',
    TimestampInjector.read ⟨(· / 1000000), (· * 1000000)⟩ ⟨true, 5020000701, 14, 0⟩
      (some ⟨⟨7, 2, 10, false, 10, [], [], []⟩, 0, 0⟩) = .ok rtp' ∧
    rtp'.toRtp = ⟨7, 2, 10, false, 10, [], [], []⟩ ∧
    |rtp'.captureTimestamp - CaptureClock.time ⟨-4294962290000000, 1000000⟩ 4294967306| ≤ (300 + 400 + 1 + 0 : ℚ) := by
  have hnew : Reaches (· = {}) (Link.Step ⟨(· / 1000000), (· * 1000000)⟩)
      (Within ⟨(· / 1000000), (· * 1000000)⟩ ⟨-4294962290000000, 1000000⟩ ⟨300, 400, 0, 1⟩) {} := .start rfl
  have hsent := hnew.step (a := Event.send ⟨⟨7, 1, 4294967290, false, 10, [], [], []⟩, 5000000300, 0⟩ 4294967290)
    ⟨rfl, fun _ => by norm_num [CaptureClock.time]⟩ (.send rfl)
  have hreported := hsent.step (a := .report 5020000700) (by norm_num [Within]) (.report rfl)
  have harrived := hreported.step (a := .deliver ⟨5020000700, 14, 4294967310⟩ 5020000701) (by norm_num [Within])
    (.deliver (List.mem_cons_self ..))
  exact captureTimestamp_carried (E := ⟨300, 400, 0, 1⟩) harrived rfl (y := 4294967306) rfl rfl (by decide) (by decide)
    (by norm_num)

end Roc.Rtp
