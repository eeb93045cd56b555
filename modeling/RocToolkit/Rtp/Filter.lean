import Mathlib.Data.List.Basic
import Mathlib.Data.List.Induction
import Mathlib.Algebra.Field.Rat
import RocToolkit.Packet.Order

/-!
# RocToolkit.Rtp.Filter

`rtp::Filter` lets a packet through if it is not too far from the newest one that it has let through before. Both
distances are taken as absolute values in signed words, where the most negative one stays negative: as a sequence
distance it is converted to `size_t` and rejected, as a timestamp distance it is below every limit.
-/

namespace Roc.Rtp

open Roc.Packet (diff16 diff32)

open BitVec

/-- `packet::RTP` with the fields that are not in the header. -/
structure TimedRtp extends Packet.Rtp where
  captureTimestamp : Int := 0
  duration : UInt32 := 0
deriving DecidableEq, Repr

/-- A packet with its flags: `FlagRTP` is set if there is an RTP part. -/
structure Incoming where
  rtp : Option TimedRtp
  flagAudio : Bool
deriving DecidableEq, Repr

structure FilterConfig where
  maxSnJump : UInt64 := 100
  maxTsJump : Int := 1000000000
deriving DecidableEq, Repr

structure FilterEnv where
  config : FilterConfig
  sampleRate : Nat
  decodedSampleCount : List UInt8 → UInt32

/-- `if (dist < 0) dist = -dist` in a signed type. -/
def magnitude {w : Nat} (dist : BitVec w) : BitVec w := if dist.toInt < 0 then -dist else dist

/-- `stream_timestamp_delta_2_ns`, without rounding. -/
def streamTimestampDelta2Ns (ts : Int) (sampleRate : Nat) : ℚ := ts * 1000000000 / sampleRate

namespace Filter

variable (E : FilterEnv)

def validateSequence (prev next : TimedRtp) : Bool := prev.sourceId = next.sourceId &&
  next.payloadType = prev.payloadType &&
  -- `(size_t)sn_dist > config_.max_sn_jump`
  ((magnitude (next.seqnum - prev.seqnum).toBitVec).signExtend 64).toNat ≤ E.config.maxSnJump.toNat &&
  streamTimestampDelta2Ns (magnitude (next.streamTimestamp - prev.streamTimestamp).toBitVec).toInt E.sampleRate ≤
    E.config.maxTsJump &&
  !(next.captureTimestamp < 0) &&
  !(next.captureTimestamp = 0 && prev.captureTimestamp ≠ 0)

/-- `prev_packet_rtp_` after a packet was let through. -/
def newer (prev : Option TimedRtp) (rtp : TimedRtp) : TimedRtp :=
  match prev with
  | none => rtp
  | some prev => if prev.toRtp.compare rtp.toRtp = .lt then rtp else prev

/-- `validate_`: the next `prev_packet_rtp_`, if the packet is let through. -/
def validate (prev : Option TimedRtp) (packet : Incoming) : Option (TimedRtp × TimedRtp) :=
  match packet.rtp with
  | none => none
  | some rtp =>
    if packet.flagAudio && prev.all (validateSequence E · rtp) then some (rtp, newer prev rtp) else none

def populate (rtp : TimedRtp) : TimedRtp :=
  if rtp.duration = 0 then { rtp with duration := E.decodedSampleCount rtp.payload } else rtp

/-- `read`, for a packet that the reader has returned: the state and the result, `StatusNoData` being `none`. -/
def read (prev : Option TimedRtp) (packet : Incoming) : Option TimedRtp × Option TimedRtp :=
  match validate E prev packet with
  | none => (prev, none)
  | some (rtp, newest) => (some newest, some (populate E rtp))

/-! ## Absolute values -/

/-- The magnitude of a distance is its absolute value, except that the most negative one is its own. -/
theorem magnitude_toInt {w : Nat} (dist : BitVec w) :
    (magnitude dist).toInt = if dist = intMin w then dist.toInt else dist.toInt.natAbs := by
  unfold magnitude
  by_cases hneg : dist.toInt < 0
  · rw [if_pos hneg, toInt_neg_eq_ite]
    split <;> omega
  · rw [if_neg hneg]
    split <;> omega

theorem natAbs_le_of_magnitude {dist : BitVec 16} {limit : Nat}
    (h : ((magnitude dist).signExtend 64).toNat ≤ limit) : dist.toInt.natAbs ≤ limit := by
  have hext := toInt_signExtend_of_le (x := magnitude dist) (show 16 ≤ 64 by decide)
  have hlow := le_two_mul_toInt (x := dist)
  have hhigh := two_mul_toInt_lt (x := dist)
  rw [magnitude_toInt, toInt_eq_toNat_cond] at hext
  split at hext <;> split at hext <;> omega

section
variable {E} {prev next : TimedRtp}

/-- What is known of a packet that follows another one. The limit for timestamps is kept exactly if the distance is
not half the range, or the limit is that long. -/
theorem validateSequence_spec (h : validateSequence E prev next = true) :
    next.sourceId = prev.sourceId ∧ next.payloadType = prev.payloadType ∧
      (diff16 next.seqnum prev.seqnum).natAbs ≤ E.config.maxSnJump.toNat ∧
      (streamTimestampDelta2Ns (diff32 next.streamTimestamp prev.streamTimestamp).natAbs E.sampleRate ≤
          E.config.maxTsJump ↔
        diff32 next.streamTimestamp prev.streamTimestamp ≠ -2147483648 ∨
          streamTimestampDelta2Ns 2147483648 E.sampleRate ≤ E.config.maxTsJump) := by
  simp only [validateSequence, Bool.and_eq_true, decide_eq_true_eq] at h
  obtain ⟨⟨⟨⟨⟨hsource, htype⟩, hsn⟩, hts⟩, -⟩, -⟩ := h
  refine ⟨hsource.symm, htype, natAbs_le_of_magnitude hsn, ?_⟩
  rw [magnitude_toInt] at hts
  have hmin : (next.streamTimestamp - prev.streamTimestamp).toBitVec = intMin 32 ↔
      diff32 next.streamTimestamp prev.streamTimestamp = -2147483648 :=
    toInt_inj.symm
  by_cases hhalf : diff32 next.streamTimestamp prev.streamTimestamp = -2147483648
  · rw [hhalf]
    simp
  · rw [if_neg (hmin.not.mpr hhalf)] at hts
    exact iff_of_true hts (.inl hhalf)

end

/-! ## Runs -/

def run (packets : List Incoming) : Option TimedRtp × List TimedRtp :=
  packets.foldl (fun s packet => ((read E s.1 packet).1,
    s.2 ++ if (read E s.1 packet).2.isSome then packet.rtp.toList else [])) (none, [])

def newest (rtps : List TimedRtp) : Option TimedRtp := rtps.foldl (fun prev rtp => some (newer prev rtp)) none

theorem read_cases (prev : Option TimedRtp) (packet : Incoming) : read E prev packet = (prev, none) ∨
      ∃ rtp, packet.rtp = some rtp ∧ (∀ p ∈ prev, validateSequence E p rtp = true) ∧
        read E prev packet = (some (newer prev rtp), some (populate E rtp)) := by
  unfold read validate
  cases packet.rtp with
  | none => exact .inl rfl
  | some rtp =>
    by_cases h : (packet.flagAudio && prev.all (validateSequence E · rtp)) = true
    · refine .inr ⟨rtp, rfl, ?_, by simp only [if_pos h]⟩
      rw [Bool.and_eq_true, Option.all_eq_true] at h
      exact h.2
    · exact .inl (by simp only [if_neg h])

/-- The state is the newest packet, and all packets have its source and payload type. -/
structure Inv (s : Option TimedRtp × List TimedRtp) : Prop where
  newest_eq : s.1 = newest s.2
  same : ∀ rtp ∈ s.2, ∃ n, s.1 = some n ∧ rtp.sourceId = n.sourceId ∧ rtp.payloadType = n.payloadType

theorem run_inv (packets : List Incoming) : Inv (run E packets) := by
  induction packets using List.reverseRecOn with
  | nil => exact ⟨rfl, nofun⟩
  | append_singleton packets packet ih =>
    rw [run, List.foldl_concat, ← run]
    generalize run E packets = s at ih
    obtain ⟨prev, rtps⟩ := s
    rcases read_cases E prev packet with hread | ⟨rtp, hrtp, hvalid, hread⟩
    · simpa [hread] using ih
    · simp only [hread, hrtp, Option.isSome_some, if_true, Option.toList_some]
      refine ⟨?_, ?_⟩
      · rw [newest, List.foldl_concat, ← newest, ← ih.newest_eq]
      · intro q hq
        refine ⟨_, rfl, ?_⟩
        cases prev with
        | none =>
          rcases List.mem_append.mp hq with hold | hnew
          · obtain ⟨n, hn, -⟩ := ih.same q hold
            cases hn
          · rw [List.mem_singleton.mp hnew]
            exact ⟨rfl, rfl⟩
        | some p =>
          obtain ⟨hsource, htype, -⟩ := validateSequence_spec (hvalid p rfl)
          -- `p` and the packet are alike, so it does not matter which one is the newer
          have hp : ∀ q ∈ rtps ++ [rtp], q.sourceId = p.sourceId ∧ q.payloadType = p.payloadType := by
            intro q hq
            rcases List.mem_append.mp hq with hold | hnew
            · obtain ⟨n, hn, hsame⟩ := ih.same q hold
              cases hn
              exact hsame
            · rw [List.mem_singleton.mp hnew]
              exact ⟨hsource, htype⟩
          have hq' := hp q hq
          unfold newer
          dsimp only
          split
          · exact ⟨hq'.1.trans hsource.symm, hq'.2.trans htype.symm⟩
          · exact hq'

/-- A packet that is let through after others has their source and payload type and is within both limits of the
newest one, the second one exactly if its timestamp is not half the range away or the limit is that long. -/
theorem accepted_iff (packets : List Incoming) (packet : Incoming) (rtp n : TimedRtp)
    (hrtp : packet.rtp = some rtp) (hnewest : newest (run E packets).2 = some n)
    (haccepted : (read E (run E packets).1 packet).2.isSome = true) :
    (∀ q ∈ (run E packets).2, rtp.sourceId = q.sourceId ∧ rtp.payloadType = q.payloadType) ∧
      (diff16 rtp.seqnum n.seqnum).natAbs ≤ E.config.maxSnJump.toNat ∧
      (streamTimestampDelta2Ns (diff32 rtp.streamTimestamp n.streamTimestamp).natAbs E.sampleRate ≤
          E.config.maxTsJump ↔
        diff32 rtp.streamTimestamp n.streamTimestamp ≠ -2147483648 ∨
          streamTimestampDelta2Ns 2147483648 E.sampleRate ≤ E.config.maxTsJump) := by
  have hinv := run_inv E packets
  rw [← hinv.newest_eq] at hnewest
  rcases read_cases E (run E packets).1 packet with hread | ⟨rtp', hrtp', hvalid, -⟩
  · rw [hread] at haccepted
    cases haccepted
  · obtain rfl : rtp = rtp' := Option.some.inj (hrtp.symm.trans hrtp')
    obtain ⟨hsource, htype, hsn, hts⟩ := validateSequence_spec (hvalid n hnewest)
    refine ⟨fun q hq => ?_, hsn, hts⟩
    obtain ⟨n', hn', hs, ht⟩ := hinv.same q hq
    obtain rfl : n = n' := Option.some.inj (hnewest.symm.trans hn')
    exact ⟨hsource.trans hs.symm, htype.trans ht.symm⟩

def defaultEnv : FilterEnv := ⟨{}, 48000, fun _ => 0⟩

def audioRtp (seqnum : UInt16) (streamTimestamp : UInt32) : TimedRtp where
  toRtp := ⟨1, seqnum, streamTimestamp, false, 10, [], [], []⟩

def audioPacket (seqnum : UInt16) (streamTimestamp : UInt32) : Incoming := ⟨some (audioRtp seqnum streamTimestamp), true⟩

/-- A packet that comes ten milliseconds after the first one. -/
theorem accepted_iff_next :
    (∀ q ∈ (run defaultEnv [audioPacket 1 0]).2, 1 = q.sourceId ∧ 10 = q.payloadType) ∧ (diff16 2 1).natAbs ≤ 100 ∧
      (streamTimestampDelta2Ns (diff32 480 0).natAbs 48000 ≤ 1000000000 ↔
        diff32 480 0 ≠ -2147483648 ∨ streamTimestampDelta2Ns 2147483648 48000 ≤ 1000000000) :=
  accepted_iff defaultEnv [audioPacket 1 0] (audioPacket 2 480) (audioRtp 2 480) (audioRtp 1 0) rfl
    (by decide +kernel) (by decide +kernel)

/-- A packet that is half the range ahead, over twelve hours, is let through. -/
theorem halfRange_accepted :
    (run defaultEnv [audioPacket 1 0, audioPacket 2 2147483648]).2.length = 2 ∧
      streamTimestampDelta2Ns 2147483648 48000 > 1000000000 := by
  decide +kernel

end Filter
end Roc.Rtp
