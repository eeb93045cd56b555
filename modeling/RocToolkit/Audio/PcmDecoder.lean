import RocToolkit.Audio.Frame
import RocToolkit.Core.Slice

/-!
# RocToolkit.Audio.PcmDecoder

`audio::PcmDecoder` and the part of `audio::PcmMapper` it uses. A payload is a string of bits, cut into samples
of `bitWidth` bits, cut into ticks: the samples of all channels at one position of the stream. The decoder
walks over the payload of one packet with a position in the stream, a number of ticks left and an offset in
bits; `Reading` says how the three belong together between `begin` and `end`.
-/

namespace Roc.Audio

/-- `audio::PcmFormat`: how a sample is read from the bits of a payload. Every format of the source has at
least 8 bits. -/
structure PcmFormat (σ : Type) where
  bitWidth : Nat
  bitWidth_ge : 8 ≤ bitWidth
  unpack : List UInt8 → Nat → σ

abbrev Tick (σ : Type) := List σ

namespace PcmFormat

variable {σ : Type} (format : PcmFormat σ) (channels : Nat)

/-- `decoded_sample_count`: the whole ticks in `bytes` bytes. -/
def numTicks (bytes : Nat) : Nat := bytes * 8 / format.bitWidth / channels

def tickAt (data : List UInt8) (bitOff : Nat) : Tick σ :=
  (List.range channels).map fun c => format.unpack data (bitOff + c * format.bitWidth)

/-- The `i`-th tick of a payload. -/
def tick (data : List UInt8) (i : Nat) : Tick σ := format.tickAt channels data (i * channels * format.bitWidth)

end PcmFormat

structure PcmDecoder where
  streamPos : StreamTimestamp := 0
  streamAvail : StreamTimestamp := 0
  frameData : Option (List UInt8) := none
  frameBitOff : Nat := 0
deriving DecidableEq, Repr

namespace PcmDecoder

variable {σ : Type} (format : PcmFormat σ) (channels : Nat)

/-- `PcmDecoder::begin`. -/
def begin (dec : PcmDecoder) (framePosition : StreamTimestamp) (data : List UInt8) : Except Fault PcmDecoder :=
  match dec.frameData with
  | some _ => .error (.panic "pcm decoder: unpaired begin/end")
  | none => .ok
    { dec with
      frameData := some data
      streamPos := framePosition
      streamAvail := BitVec.ofNat 32 (format.numTicks channels data.length) }

/-- `PcmDecoder::read` of at most `n` ticks. -/
def read (dec : PcmDecoder) (n : Nat) : Except Fault (List (Tick σ) × PcmDecoder) :=
  match dec.frameData with
  | none => .error (.panic "pcm decoder: read should be called only between begin/end")
  | some data =>
    let n := min n dec.streamAvail.toNat
    if dec.frameBitOff > data.length * 8 then .error (.panic "pcm mapper: input offset out of bounds")
    else
      -- `PcmMapper::map` counts samples, and stops where the payload ends
      let mapped := min (n * channels) ((data.length * 8 - dec.frameBitOff) / format.bitWidth)
      let ticks := mapped / channels
      if ticks > n then .error (.panic "!(n_mapped_samples <= n_samples)")
      else .ok ((List.range ticks).map fun i =>
            format.tickAt channels data (dec.frameBitOff + i * channels * format.bitWidth),
          { dec with
            frameBitOff := dec.frameBitOff + mapped * format.bitWidth
            streamPos := dec.streamPos + BitVec.ofNat 32 ticks
            streamAvail := dec.streamAvail - BitVec.ofNat 32 ticks })

/-- `PcmDecoder::shift`. -/
def shift (dec : PcmDecoder) (n : Nat) : Except Fault (Nat × PcmDecoder) :=
  match dec.frameData with
  | none => .error (.panic "pcm decoder: shift should be called only between begin/end")
  | some _ =>
    let n := min n dec.streamAvail.toNat
    .ok (n,
      { dec with
        frameBitOff := dec.frameBitOff + n * channels * format.bitWidth
        streamPos := dec.streamPos + BitVec.ofNat 32 n
        streamAvail := dec.streamAvail - BitVec.ofNat 32 n })

/-- `PcmDecoder::end`. -/
def finish (dec : PcmDecoder) : Except Fault PcmDecoder :=
  match dec.frameData with
  | none => .error (.panic "pcm decoder: unpaired begin/end")
  | some _ => .ok
    { dec with
      streamAvail := 0
      frameData := none
      frameBitOff := 0 }

/-! ## Walking over a payload -/

/-- The number of ticks that `begin` finds in a payload; `stream_timestamp_t` has 32 bits. -/
def total (data : List UInt8) : Nat := format.numTicks channels data.length % 2 ^ 32

/-- The decoder is in the payload `data` of a packet at `ts`, after `k` of its ticks. -/
structure Reading (dec : PcmDecoder) (ts : StreamTimestamp) (data : List UInt8) (k : Nat) : Prop where
  frameData : dec.frameData = some data
  le : k ≤ total format channels data
  streamPos : dec.streamPos = ts + BitVec.ofNat 32 k
  streamAvail : dec.streamAvail = BitVec.ofNat 32 (total format channels data - k)
  frameBitOff : dec.frameBitOff = k * channels * format.bitWidth

/-- The decoder between `end` and `begin`. -/
structure Idle (dec : PcmDecoder) : Prop where
  frameData : dec.frameData = none
  frameBitOff : dec.frameBitOff = 0

theorem total_lt (data : List UInt8) : total format channels data < 2 ^ 32 := Nat.mod_lt _ (by decide)

theorem total_bits (data : List UInt8) : total format channels data * channels * format.bitWidth ≤ data.length * 8 := by
  have h1 : total format channels data ≤ data.length * 8 / format.bitWidth / channels := Nat.mod_le _ _
  calc total format channels data * channels * format.bitWidth
      ≤ data.length * 8 / format.bitWidth * format.bitWidth :=
        Nat.mul_le_mul_right _ ((Nat.mul_le_mul_right _ h1).trans (Nat.div_mul_le_self _ _))
    _ ≤ data.length * 8 := Nat.div_mul_le_self _ _

theorem begin_spec {dec : PcmDecoder} (h : dec.Idle) (ts : StreamTimestamp) (data : List UInt8) :
    ∃ dec', dec.begin format channels ts data = .ok dec' ∧ Reading format channels dec' ts data 0 := by
  have hbegin : dec.begin format channels ts data = .ok
      { dec with
        frameData := some data
        streamPos := ts
        streamAvail := BitVec.ofNat 32 (format.numTicks channels data.length) } := by
    simp only [begin, h.frameData]
  refine ⟨_, hbegin, rfl, Nat.zero_le _, by simp, ?_, by simp [h.frameBitOff]⟩
  apply BitVec.eq_of_toNat_eq
  simp [total]

variable {format channels} {dec : PcmDecoder} {ts : StreamTimestamp} {data : List UInt8} {k : Nat}

section
variable (h : Reading format channels dec ts data k)
include h

theorem Reading.avail : dec.streamAvail.toNat = total format channels data - k := by
  have := total_lt format channels data
  rw [h.streamAvail, BitVec.toNat_ofNat, Nat.mod_eq_of_lt (by omega)]

theorem Reading.move {n : Nat} (hn : k + n ≤ total format channels data) : Reading format channels
      { dec with
        frameBitOff := dec.frameBitOff + n * channels * format.bitWidth
        streamPos := dec.streamPos + BitVec.ofNat 32 n
        streamAvail := dec.streamAvail - BitVec.ofNat 32 n } ts data (k + n) where
  frameData := h.frameData
  le := hn
  streamPos := by
    rw [h.streamPos, BitVec.add_assoc, ← BitVec.ofNat_add]
  streamAvail := by
    have := total_lt format channels data
    rw [h.streamAvail]
    apply BitVec.eq_of_toNat_eq
    simp only [BitVec.toNat_sub, BitVec.toNat_ofNat]
    omega
  frameBitOff := by rw [h.frameBitOff]; ring

theorem shift_spec (n : Nat) :
    ∃ dec', dec.shift format channels n = .ok (min n (total format channels data - k), dec') ∧
      Reading format channels dec' ts data (k + min n (total format channels data - k)) := by
  have hle := h.le
  exact ⟨_, by simp only [shift, h.frameData, h.avail], h.move (by omega)⟩

end

/-- `read` returns the next ticks of the payload, as many as there are. -/
theorem read_spec (hc : 0 < channels) (h : Reading format channels dec ts data k) (n : Nat) :
    ∃ dec', dec.read format channels n = .ok ((List.range (min n (total format channels data - k))).map fun i =>
          format.tick channels data (k + i), dec') ∧
      Reading format channels dec' ts data (k + min n (total format channels data - k)) := by
  have hle := h.le
  have hbits := total_bits format channels data
  have hw := format.bitWidth_ge
  obtain ⟨m, hm⟩ : ∃ m, m = min n (total format channels data - k) := ⟨_, rfl⟩
  have hfit : (k + m) * channels * format.bitWidth ≤ data.length * 8 :=
    (Nat.mul_le_mul_right _ (Nat.mul_le_mul_right _ (show k + m ≤ total format channels data by omega))).trans hbits
  have hsplit : (k + m) * channels * format.bitWidth =
      k * channels * format.bitWidth + m * channels * format.bitWidth := by ring
  have hmapped : min (m * channels) ((data.length * 8 - dec.frameBitOff) / format.bitWidth) = m * channels := by
    refine Nat.min_eq_left ((Nat.le_div_iff_mul_le (by omega)).mpr ?_)
    rw [h.frameBitOff]
    omega
  have hoff : ¬ dec.frameBitOff > data.length * 8 := by rw [h.frameBitOff]; omega
  refine ⟨_, ?_, by rw [← hm]; exact h.move (by omega)⟩
  simp only [read, h.frameData, h.avail, ← hm, hoff, if_false, hmapped, Nat.mul_div_cancel _ hc,
    Nat.lt_irrefl, gt_iff_lt]
  refine congrArg Except.ok (Prod.ext ?_ rfl)
  refine List.map_congr_left fun i _ => ?_
  rw [PcmFormat.tick, h.frameBitOff]
  congr 1
  ring

theorem finish_spec (h : Reading format channels dec ts data k) : ∃ dec', dec.finish = .ok dec' ∧ dec'.Idle := by
  have hfinish : dec.finish = .ok
      { dec with
        streamAvail := 0
        frameData := none
        frameBitOff := 0 } := by
    simp only [finish, h.frameData]
  exact ⟨_, hfinish, rfl, rfl⟩

end PcmDecoder
end Roc.Audio
