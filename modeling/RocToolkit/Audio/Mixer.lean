import RocToolkit.Core.Slice
import Mathlib.Algebra.Field.Rat
import Mathlib.Algebra.BigOperators.Group.List.Basic
import Mathlib.Tactic.Positivity
import Mathlib.Tactic.Ring

/-!
# RocToolkit.Audio.Mixer

`audio::Mixer::read` (roc_audio/mixer.cpp). One reader is read straight into the frame; any other number of
readers is mixed piece by piece, each piece as large as the temporary buffer at most. Samples are integers, and
the average of capture timestamps is exact. Frames are raw, so the panics for others are left out, and durations
do not wrap.

Readers do not notice how a read is split: the pieces give the same samples and together the same flags, the
first piece has the timestamp of the whole, and when the whole read fails so do the pieces. Then samples and
flags of the mix do not depend on the pieces either. The capture timestamp does: each piece overwrites it.
-/

namespace Roc.Audio

open List

structure Piece where
  samples : List Int
  flags : BitVec 32
  duration : Nat
  captureTs : Nat
deriving DecidableEq, Repr

/-- `IFrameReader::read` with the states `ρ` of readers; `none` is a read that returns false. Samples are in
`[lo, hi]`. -/
structure FrameReader (ρ : Type) (lo hi : Int) where
  read : ρ → Nat → Option Piece × ρ
  length_samples : ∀ {r n piece}, (read r n).1 = some piece → piece.samples.length = n
  range_samples : ∀ {r n piece}, (read r n).1 = some piece → ∀ s ∈ piece.samples, lo ≤ s ∧ s ≤ hi
  split_none : ∀ {r a b}, 0 < a → 0 < b → (read r a).1 = none →
    (read (read r a).2 b).1 = none ∧ read r (a + b) = (none, (read (read r a).2 b).2)
  split_some : ∀ {r a b first}, 0 < a → 0 < b → (read r a).1 = some first →
    ∃ second whole, (read (read r a).2 b).1 = some second ∧
      read r (a + b) = (some whole, (read (read r a).2 b).2) ∧
      whole.samples = first.samples ++ second.samples ∧ whole.flags = first.flags ||| second.flags ∧
      whole.captureTs = first.captureTs

/-- `audio::Frame`. -/
structure MixFrame where
  samples : List Int
  flags : BitVec 32
  duration : Nat
  captureTs : ℚ
deriving DecidableEq, Repr

/-- `Frame::set_duration`. -/
def MixFrame.setDuration (frame : MixFrame) (duration : Nat) : Except Fault MixFrame :=
  if duration = 0 then .error (.panic "frame: invalid zero duration")
  else .ok { frame with duration }

/-- The parameters of a mixer; `tempSize` is the size of `temp_buf_`. -/
structure Mixer where
  channels : Nat
  channels_pos : 0 < channels
  enableTimestamps : Bool
  tempSize : Nat
  tempSize_pos : 0 < tempSize
  sampleMin : Int
  sampleMin_le : sampleMin ≤ 0
  sampleMax : Int
  sampleMax_ge : 0 ≤ sampleMax

namespace Mixer

/-- What `read_` has while it goes over the readers. -/
structure Mix where
  out : List Int
  flags : BitVec 32
  ctsBase : Nat := 0
  ctsSum : ℚ := 0
  ctsCount : Nat := 0

structure Chunk (ρ : Type) where
  samples : List Int
  flags : BitVec 32
  captureTs : ℚ
  readers : List ρ

variable (mixer : Mixer) {ρ : Type} (reader : FrameReader ρ mixer.sampleMin mixer.sampleMax)

def add (a b : Int) : Int := max (min (a + b) mixer.sampleMax) mixer.sampleMin

/-- What `read_` does with a frame that was read. -/
def mixPiece (mix : Mix) (piece : Piece) : Mix :=
  let mix :=
    { mix with
      out := List.zipWith mixer.add mix.out piece.samples
      flags := mix.flags ||| piece.flags }
  if mixer.enableTimestamps && piece.captureTs != 0 then
    let ctsBase := if mix.ctsBase = 0 then piece.captureTs else mix.ctsBase
    { mix with
      ctsBase := ctsBase
      ctsSum := mix.ctsSum + ((piece.captureTs : ℚ) - ctsBase)
      ctsCount := mix.ctsCount + 1 }
  else mix

/-- The loop of `read_` over the readers. -/
def mixReaders (n : Nat) : List ρ → Mix → Mix × List ρ
  | [], mix => (mix, [])
  | r :: rest, mix =>
    let (piece, r) := reader.read r n
    let mix := match piece with
      | none => mix
      | some piece => mixer.mixPiece mix piece
    let (mix, rest) := mixReaders n rest mix
    (mix, r :: rest)

/-- `read_`: flags are accumulated, and the timestamp is overwritten. -/
def readChunk (readers : List ρ) (n : Nat) (flags : BitVec 32) (captureTs : ℚ) : Chunk ρ :=
  let (mix, rest) := mixer.mixReaders reader n readers { out := List.replicate n 0, flags }
  { samples := mix.out
    flags := mix.flags
    captureTs := if mix.ctsCount ≠ 0 then
        mix.ctsBase * (mix.ctsCount / readers.length) + mix.ctsSum / readers.length
      else captureTs
    readers := rest }

/-- The loop of `read` over the frame; it takes no more rounds than there are samples. -/
def readChunks : Nat → List ρ → Nat → BitVec 32 → ℚ → Chunk ρ
  | 0, readers, _, flags, captureTs => { samples := [], flags, captureTs, readers }
  | fuel + 1, readers, n, flags, captureTs =>
    if n = 0 then { samples := [], flags, captureTs, readers }
    else
      let size := min n mixer.tempSize
      let chunk := mixer.readChunk reader readers size flags captureTs
      let rest := readChunks fuel chunk.readers (n - size) chunk.flags chunk.captureTs
      { rest with samples := chunk.samples ++ rest.samples }

/-- The general path of `read`. -/
def mixAll (readers : List ρ) (frame : MixFrame) : Except Fault (MixFrame × List ρ) := do
  let n := frame.samples.length
  let chunk := mixer.readChunks reader n readers n 0 0
  let frame := { frame with samples := chunk.samples, flags := chunk.flags }
  let frame ← frame.setDuration (n / mixer.channels)
  return ({ frame with captureTs := chunk.captureTs }, chunk.readers)

/-- What a reader that is read straight into the frame leaves in it. A read that fails leaves the frame as it was,
and the mixer sets its duration. -/
def readInto (frame : MixFrame) : Option Piece → Except Fault MixFrame
  | none => frame.setDuration (frame.samples.length / mixer.channels)
  | some piece => .ok
    { samples := piece.samples
      flags := piece.flags
      duration := piece.duration
      captureTs := piece.captureTs }

def readSingle (r : ρ) (frame : MixFrame) : Except Fault (MixFrame × List ρ) := do
  let (piece, r) := reader.read r frame.samples.length
  let frame ← mixer.readInto frame piece
  return (if mixer.enableTimestamps then frame else { frame with captureTs := 0 }, [r])

/-- `Mixer::read`. -/
def read (readers : List ρ) (frame : MixFrame) : Except Fault (MixFrame × List ρ) :=
  match readers with
  | [r] => mixer.readSingle reader r frame
  | readers => mixer.mixAll reader readers frame

/-! ## A chunk -/

variable {mixer reader}

def pieces (reader : FrameReader ρ mixer.sampleMin mixer.sampleMax) (readers : List ρ) (n : Nat) : List Piece :=
  readers.filterMap fun r => (reader.read r n).1

def after (reader : FrameReader ρ mixer.sampleMin mixer.sampleMax) (readers : List ρ) (n : Nat) : List ρ :=
  readers.map fun r => (reader.read r n).2

def mixSamples (mixer : Mixer) (out : List Int) (pieces : List Piece) : List Int :=
  pieces.foldl (fun out piece => List.zipWith mixer.add out piece.samples) out

def allFlags (pieces : List Piece) : BitVec 32 := pieces.foldr (fun piece flags => piece.flags ||| flags) 0

def stampSum (pieces : List Piece) : Nat := (pieces.map Piece.captureTs).sum

theorem mixReaders_eq (n : Nat) (readers : List ρ) (mix : Mix) : mixer.mixReaders reader n readers mix =
      ((pieces reader readers n).foldl mixer.mixPiece mix, after reader readers n) := by
  induction readers generalizing mix with
  | nil => rfl
  | cons r rest ih =>
    cases hread : (reader.read r n).1 with
    | none => simp only [mixReaders, hread, ih, pieces, after, filterMap_cons, map_cons]
    | some piece => simp only [mixReaders, hread, ih, pieces, after, filterMap_cons, map_cons, foldl_cons]

structure Mix.Stamped (mix : Mix) (sum : Nat) : Prop where
  ctsSum : mix.ctsSum = (sum : ℚ) - mix.ctsCount * mix.ctsBase
  ctsCount : mix.ctsCount = 0 ↔ sum = 0
  ctsBase : mix.ctsBase = 0 ↔ sum = 0

theorem mixPiece_out (mixer : Mixer) (mix : Mix) (piece : Piece) :
    (mixer.mixPiece mix piece).out = List.zipWith mixer.add mix.out piece.samples ∧
      (mixer.mixPiece mix piece).flags = mix.flags ||| piece.flags := by
  rw [mixPiece]
  split
  · exact ⟨rfl, rfl⟩
  · exact ⟨rfl, rfl⟩

variable {mix : Mix}

theorem Mix.Stamped.mixPiece {sum : Nat} (h : mix.Stamped sum) (piece : Piece)
    (hon : mixer.enableTimestamps = true) : (mixer.mixPiece mix piece).Stamped (sum + piece.captureTs) := by
  obtain ⟨hsum, hcount, hbase⟩ := h
  by_cases hzero : piece.captureTs = 0
  · simp only [Mixer.mixPiece, hzero, bne_self_eq_false, Bool.and_false, Bool.false_eq_true, if_false, Nat.add_zero]
    exact ⟨hsum, hcount, hbase⟩
  · have hcond : (mixer.enableTimestamps && piece.captureTs != 0) = true := by simp [hon, hzero]
    simp only [Mixer.mixPiece, hcond, if_true]
    by_cases hfirst : mix.ctsBase = 0
    · have hsum0 := hbase.mp hfirst
      have hcount0 := hcount.mpr hsum0
      refine ⟨?_, by simp; omega, by simp [hfirst]; omega⟩
      simp [hfirst, hsum0, hcount0, hsum]
    · refine ⟨?_, by simp; omega, by simp [hfirst]; omega⟩
      simp only [hfirst, if_false, hsum]
      push_cast
      ring

theorem foldl_mixPiece (mixer : Mixer) (pieces : List Piece) (mix : Mix) :
    (pieces.foldl mixer.mixPiece mix).out = mixer.mixSamples mix.out pieces ∧
      (pieces.foldl mixer.mixPiece mix).flags = mix.flags ||| allFlags pieces := by
  induction pieces generalizing mix with
  | nil => simp [mixSamples, allFlags]
  | cons piece rest ih =>
    obtain ⟨hout, hflags⟩ := ih (mixer.mixPiece mix piece)
    obtain ⟨hout', hflags'⟩ := mixPiece_out mixer mix piece
    rw [foldl_cons, hout, hflags, hout', hflags']
    exact ⟨rfl, by rw [BitVec.or_assoc]; rfl⟩

theorem foldl_stamped (pieces : List Piece) {sum : Nat} (h : mix.Stamped sum) (hon : mixer.enableTimestamps = true) :
    (pieces.foldl mixer.mixPiece mix).Stamped (sum + stampSum pieces) := by
  induction pieces generalizing mix sum with
  | nil => exact h
  | cons piece rest ih =>
    have := ih (h.mixPiece piece hon)
    rwa [stampSum, map_cons, sum_cons, ← Nat.add_assoc]

theorem foldl_unstamped (pieces : List Piece) (h : mix.ctsCount = 0)
    (hoff : mixer.enableTimestamps = false) : (pieces.foldl mixer.mixPiece mix).ctsCount = 0 := by
  induction pieces generalizing mix with
  | nil => exact h
  | cons piece rest ih => exact ih (by simp [mixPiece, hoff, h])

def stamp (mixer : Mixer) (numReaders : Nat) (captureTs : ℚ) (sum : Nat) : ℚ :=
  if mixer.enableTimestamps = true ∧ sum ≠ 0 then sum / numReaders else captureTs

theorem readChunk_eq (readers : List ρ) (n : Nat) (flags : BitVec 32) (captureTs : ℚ) :
    mixer.readChunk reader readers n flags captureTs =
      { samples := mixer.mixSamples (List.replicate n 0) (pieces reader readers n)
        flags := flags ||| allFlags (pieces reader readers n)
        captureTs := mixer.stamp readers.length captureTs (stampSum (pieces reader readers n))
        readers := after reader readers n } := by
  simp only [readChunk, mixReaders_eq]
  obtain ⟨hout, hflags⟩ := foldl_mixPiece mixer (pieces reader readers n)
    { out := List.replicate n 0, flags }
  rw [hout, hflags]
  congr 1
  rw [stamp]
  cases hon : mixer.enableTimestamps with
  | false =>
    have hcount := foldl_unstamped (pieces reader readers n)
      (show ({ out := List.replicate n 0, flags } : Mix).ctsCount = 0 from rfl) hon
    rw [if_neg (by simpa using hcount), if_neg (by simp)]
  | true =>
    have hstart : ({ out := List.replicate n 0, flags } : Mix).Stamped 0 := ⟨by simp, by simp, by simp⟩
    obtain ⟨hsum, hcount, hbase⟩ := foldl_stamped (pieces reader readers n) hstart hon
    rw [Nat.zero_add] at hsum hcount hbase
    by_cases hzero : stampSum (pieces reader readers n) = 0
    · rw [if_neg (by simpa using hcount.mpr hzero), if_neg (by simp [hzero])]
    · rw [if_pos (by simpa using (not_congr hcount).mpr hzero), if_pos ⟨rfl, hzero⟩, hsum]
      ring

/-! ## Splitting a read -/

inductive Splits (a : Nat) : List Piece → List Piece → List Piece → Prop
  | nil : Splits a [] [] []
  | cons {first second whole : Piece} {firsts seconds wholes : List Piece} (hlength : first.samples.length = a)
      (hsamples : whole.samples = first.samples ++ second.samples)
      (hflags : whole.flags = first.flags ||| second.flags) (hcts : whole.captureTs = first.captureTs)
      (hrest : Splits a firsts seconds wholes) : Splits a (first :: firsts) (second :: seconds) (whole :: wholes)

theorem splits_pieces (reader : FrameReader ρ mixer.sampleMin mixer.sampleMax) {a b : Nat} (ha : 0 < a)
    (hb : 0 < b) (readers : List ρ) :
    Splits a (pieces reader readers a) (pieces reader (after reader readers a) b) (pieces reader readers (a + b)) ∧
      after reader readers (a + b) = after reader (after reader readers a) b := by
  induction readers with
  | nil => exact ⟨.nil, rfl⟩
  | cons r rest ih =>
    obtain ⟨hsplits, hafter⟩ := ih
    cases hread : (reader.read r a).1 with
    | none =>
      obtain ⟨hsecond, hwhole⟩ := reader.split_none ha hb hread
      simp only [pieces, after, filterMap_cons, map_cons, hread, hsecond, hwhole] at hsplits hafter ⊢
      exact ⟨hsplits, by rw [hafter]⟩
    | some first =>
      obtain ⟨second, whole, hsecond, hwhole, hsamples, hflags, hcts⟩ := reader.split_some ha hb hread
      simp only [pieces, after, filterMap_cons, map_cons, hread, hsecond, hwhole] at hsplits hafter ⊢
      exact ⟨.cons (reader.length_samples hread) hsamples hflags hcts hsplits, by rw [hafter]⟩

section
variable {a : Nat} {firsts seconds wholes : List Piece} (h : Splits a firsts seconds wholes)
include h

theorem Splits.mixSamples {x y : List Int} (hx : x.length = a) :
    mixer.mixSamples (x ++ y) wholes = mixer.mixSamples x firsts ++ mixer.mixSamples y seconds := by
  induction h generalizing x y with
  | nil => rfl
  | cons hlength hsamples _ _ _ ih =>
    simp only [Mixer.mixSamples, foldl_cons, hsamples]
    rw [zipWith_append (by rw [hx, hlength])]
    exact ih (by rw [length_zipWith, hx, hlength, Nat.min_self])

theorem Splits.allFlags : Mixer.allFlags wholes = Mixer.allFlags firsts ||| Mixer.allFlags seconds := by
  induction h with
  | nil => rfl
  | cons _ _ hflags _ _ ih =>
    simp only [Mixer.allFlags, foldr_cons] at ih ⊢
    rw [ih, hflags]
    ac_rfl

end

theorem length_after (readers : List ρ) (n : Nat) : (after reader readers n).length = readers.length := by
  simp [after]

/-! ## A frame -/

def chunkStamps (reader : FrameReader ρ mixer.sampleMin mixer.sampleMax) : Nat → List ρ → Nat → List Nat
  | 0, _, _ => []
  | fuel + 1, readers, n =>
    if n = 0 then []
    else
      let size := min n mixer.tempSize
      stampSum (pieces reader readers size) :: chunkStamps reader fuel (after reader readers size) (n - size)

variable {fuel n : Nat}

theorem readChunks_eq (hn : n ≤ fuel) (hpos : 0 < n) (readers : List ρ) (flags : BitVec 32) (captureTs : ℚ) :
    mixer.readChunks reader fuel readers n flags captureTs =
      { samples := mixer.mixSamples (List.replicate n 0) (pieces reader readers n)
        flags := flags ||| allFlags (pieces reader readers n)
        captureTs := (chunkStamps reader fuel readers n).foldl (mixer.stamp readers.length) captureTs
        readers := after reader readers n } := by
  induction fuel generalizing n readers flags captureTs with
  | zero => omega
  | succ fuel ih =>
    have htemp := mixer.tempSize_pos
    simp only [readChunks, chunkStamps, if_neg hpos.ne', readChunk_eq, foldl_cons]
    by_cases hlast : n ≤ mixer.tempSize
    · rw [Nat.min_eq_left hlast, Nat.sub_self]
      cases fuel with
      | zero | succ fuel => simp [readChunks, chunkStamps]
    · obtain ⟨m, rfl⟩ : ∃ m, n = mixer.tempSize + m := ⟨n - mixer.tempSize, by omega⟩
      obtain ⟨hsplits, hafter⟩ := splits_pieces reader htemp (show 0 < m by omega) readers
      rw [Nat.min_eq_right (by omega), Nat.add_sub_cancel_left, ih (by omega) (by omega), length_after,
        replicate_add, hsplits.mixSamples length_replicate, hsplits.allFlags, hafter, BitVec.or_assoc]

def lastStamp (last : Nat) (stamps : List Nat) : Nat :=
  stamps.foldl (fun last sum => if sum = 0 then last else sum) last

theorem foldl_stamp (mixer : Mixer) (numReaders last : Nat) (stamps : List Nat) :
    stamps.foldl (mixer.stamp numReaders) (if mixer.enableTimestamps then (last : ℚ) / numReaders else 0) =
      if mixer.enableTimestamps then (lastStamp last stamps : ℚ) / numReaders else 0 := by
  induction stamps generalizing last with
  | nil => rfl
  | cons sum rest ih =>
    rw [foldl_cons, lastStamp, foldl_cons, ← lastStamp, ← ih]
    congr 1
    cases hon : mixer.enableTimestamps with
    | false => simp [stamp, hon]
    | true =>
      by_cases hzero : sum = 0
      · simp [stamp, hzero]
      · simp [stamp, hon, hzero]

theorem mixAll_eq (reader : FrameReader ρ mixer.sampleMin mixer.sampleMax) (readers : List ρ) {frame : MixFrame}
    (hticks : mixer.channels ≤ frame.samples.length) :
    mixer.mixAll reader readers frame = .ok
      ({ samples := mixer.mixSamples (List.replicate frame.samples.length 0)
          (pieces reader readers frame.samples.length)
         flags := allFlags (pieces reader readers frame.samples.length)
         duration := frame.samples.length / mixer.channels
         captureTs :=
          if mixer.enableTimestamps then
            (lastStamp 0 (chunkStamps reader frame.samples.length readers frame.samples.length) : ℚ) /
              readers.length
          else 0 },
        after reader readers frame.samples.length) := by
  have hpos := mixer.channels_pos
  have hduration : ¬ frame.samples.length / mixer.channels = 0 := by
    have := Nat.div_pos hticks hpos
    omega
  have hstart : (0 : ℚ) = if mixer.enableTimestamps then ((0 : Nat) : ℚ) / readers.length else 0 := by simp
  simp only [mixAll, readChunks_eq (Nat.le_refl _) (hpos.trans_le hticks), MixFrame.setDuration, if_neg hduration,
    ok_bind, pure_eq_ok]
  rw [hstart, foldl_stamp, ← hstart, show (0 : BitVec 32) ||| allFlags _ = allFlags _ from BitVec.zero_or]

theorem chunkStamps_of_nil (hn : n ≤ fuel) {readers : List ρ}
    (h : 0 < n → pieces reader readers n = []) : lastStamp 0 (chunkStamps reader fuel readers n) = 0 := by
  induction fuel generalizing n readers with
  | zero => rfl
  | succ fuel ih =>
    rw [chunkStamps]
    by_cases hzero : n = 0
    · rw [if_pos hzero]; rfl
    · rw [if_neg hzero]
      have htemp := mixer.tempSize_pos
      have hnil := h (Nat.pos_of_ne_zero hzero)
      by_cases hlast : n ≤ mixer.tempSize
      · simp only [Nat.min_eq_left hlast, hnil]
        exact ih (by omega) fun hpos => by omega
      · obtain ⟨m, rfl⟩ : ∃ m, n = mixer.tempSize + m := ⟨n - mixer.tempSize, by omega⟩
        obtain ⟨hsplits, -⟩ := splits_pieces reader htemp (show 0 < m by omega) readers
        rw [hnil] at hsplits
        simp only [Nat.min_eq_right (show mixer.tempSize ≤ mixer.tempSize + m by omega), Nat.add_sub_cancel_left]
        generalize hfirsts : pieces reader readers mixer.tempSize = firsts at hsplits
        generalize hseconds : pieces reader (after reader readers mixer.tempSize) m = seconds at hsplits
        cases hsplits
        exact ih (by omega) fun _ => hseconds

theorem chunkStamps_of_le (hpos : 0 < n) (hle : n ≤ mixer.tempSize) (readers : List ρ) :
    lastStamp 0 (chunkStamps reader n readers n) = stampSum (pieces reader readers n) := by
  obtain ⟨k, rfl⟩ : ∃ k, n = k + 1 := ⟨n - 1, by omega⟩
  have hend : chunkStamps reader k (after reader readers (k + 1)) 0 = [] := by
    cases k with
    | zero => rfl
    | succ k => rfl
  rw [chunkStamps, if_neg hpos.ne']
  simp only [Nat.min_eq_left hle, Nat.sub_self, hend, lastStamp, foldl_cons, foldl_nil]
  split
  · omega
  · rfl

theorem add_zero_of_range {a : Int} (h : mixer.sampleMin ≤ a ∧ a ≤ mixer.sampleMax) : mixer.add 0 a = a := by
  rw [add]
  omega

theorem zipWith_add_zeros {samples : List Int} (h : ∀ s ∈ samples, mixer.sampleMin ≤ s ∧ s ≤ mixer.sampleMax) :
    List.zipWith mixer.add (List.replicate samples.length 0) samples = samples := by
  induction samples with
  | nil => rfl
  | cons s rest ih =>
    rw [length_cons, replicate_succ, zipWith_cons_cons,
      add_zero_of_range (h s mem_cons_self), ih (forall_mem_cons.mp h).2]

abbrev withTemp (mixer : Mixer) (size : Nat) (hsize : 0 < size) : Mixer :=
  { mixer with tempSize := size, tempSize_pos := hsize }

/-- A frame that is read does not depend on the path and on the temporary buffer, and it is silence if there is
nothing to mix. -/
structure PathIndependent (mixer : Mixer) (reader : FrameReader ρ mixer.sampleMin mixer.sampleMax)
    (readers : List ρ) (frame : MixFrame) : Prop where
  single : ∀ r, readers = [r] → mixer.read reader readers frame = mixer.mixAll reader readers frame
  buffer : ∀ (size : Nat) (hsize : 0 < size), frame.samples.length ≤ size →
    mixer.read reader readers frame = (mixer.withTemp size hsize).read reader readers frame
  silence : (∀ r ∈ readers, (reader.read r frame.samples.length).1 = none) →
    ∃ result rest, mixer.read reader readers frame = .ok (result, rest) ∧
      result.samples = List.replicate frame.samples.length 0 ∧ result.flags = 0

/-- When it is so: a single reader does not fail, unless the frame is silence already; a single reader reports the
duration; and the last timestamps of the readers in the frame add up to the same as the first ones. -/
structure PathCondition (mixer : Mixer) (reader : FrameReader ρ mixer.sampleMin mixer.sampleMax)
    (readers : List ρ) (frame : MixFrame) : Prop where
  clean : ∀ r, readers = [r] → (reader.read r frame.samples.length).1 = none →
    frame.samples = List.replicate frame.samples.length 0 ∧ frame.flags = 0 ∧
      (mixer.enableTimestamps = true → frame.captureTs = 0)
  duration : ∀ r piece, readers = [r] → (reader.read r frame.samples.length).1 = some piece →
    piece.duration = frame.samples.length / mixer.channels
  stamps : mixer.enableTimestamps = true →
    lastStamp 0 (chunkStamps reader frame.samples.length readers frame.samples.length) =
      stampSum (pieces reader readers frame.samples.length)

section
variable {frame : MixFrame} {r : ρ} {piece : Piece}

theorem readSingle_of_none (hticks : mixer.channels ≤ frame.samples.length)
    (hread : (reader.read r frame.samples.length).1 = none) :
    mixer.readSingle reader r frame = .ok ({ frame with
          duration := frame.samples.length / mixer.channels
          captureTs := if mixer.enableTimestamps then frame.captureTs else 0 },
        after reader [r] frame.samples.length) := by
  have hduration : ¬ frame.samples.length / mixer.channels = 0 := by
    have := Nat.div_pos hticks mixer.channels_pos
    omega
  simp only [readSingle, hread, readInto, MixFrame.setDuration, if_neg hduration, ok_bind, pure_eq_ok]
  cases mixer.enableTimestamps with
  | true => rfl
  | false => rfl

theorem readSingle_of_some (hread : (reader.read r frame.samples.length).1 = some piece) :
    mixer.readSingle reader r frame = .ok
      ({ samples := piece.samples
         flags := piece.flags
         duration := piece.duration
         captureTs := if mixer.enableTimestamps then (piece.captureTs : ℚ) else 0 },
        after reader [r] frame.samples.length) := by
  simp only [readSingle, hread, readInto, ok_bind, pure_eq_ok]
  cases mixer.enableTimestamps with
  | true => rfl
  | false => rfl

theorem mixAll_of_some (hticks : mixer.channels ≤ frame.samples.length)
    (hread : (reader.read r frame.samples.length).1 = some piece) :
    mixer.mixAll reader [r] frame = .ok
      ({ samples := piece.samples
         flags := piece.flags
         duration := frame.samples.length / mixer.channels
         captureTs :=
          if mixer.enableTimestamps then
            (lastStamp 0 (chunkStamps reader frame.samples.length [r] frame.samples.length) : ℚ)
          else 0 },
        after reader [r] frame.samples.length) := by
  have hpieces : pieces reader [r] frame.samples.length = [piece] := by simp [pieces, hread]
  have hsamples := zipWith_add_zeros (reader.range_samples hread)
  rw [reader.length_samples hread] at hsamples
  rw [mixAll_eq _ _ hticks, hpieces]
  simp [mixSamples, hsamples, allFlags]

variable {readers : List ρ}

theorem mixAll_of_nil (hticks : mixer.channels ≤ frame.samples.length)
    (hpieces : pieces reader readers frame.samples.length = []) :
    mixer.mixAll reader readers frame = .ok
      ({ samples := List.replicate frame.samples.length 0
         flags := 0
         duration := frame.samples.length / mixer.channels
         captureTs := 0 }, after reader readers frame.samples.length) := by
  rw [mixAll_eq _ _ hticks, hpieces, chunkStamps_of_nil (Nat.le_refl _) fun _ => hpieces]
  simp [mixSamples, allFlags]

variable {size : Nat}

theorem mixAll_withTemp (readers : List ρ) (hticks : mixer.channels ≤ frame.samples.length)
    (hsize : 0 < size) (hle : frame.samples.length ≤ size) :
    (mixer.withTemp size hsize).mixAll reader readers frame = .ok
      ({ samples := mixer.mixSamples (List.replicate frame.samples.length 0)
          (pieces reader readers frame.samples.length)
         flags := allFlags (pieces reader readers frame.samples.length)
         duration := frame.samples.length / mixer.channels
         captureTs := if mixer.enableTimestamps then
            (stampSum (pieces reader readers frame.samples.length) : ℚ) / readers.length
          else 0 },
        after reader readers frame.samples.length) := by
  have hpos := mixer.channels_pos.trans_le hticks
  have hall := mixAll_eq (show FrameReader ρ (mixer.withTemp size hsize).sampleMin _ from reader) readers
    (show (mixer.withTemp size hsize).channels ≤ frame.samples.length from hticks)
  rw [chunkStamps_of_le hpos (show frame.samples.length ≤ (mixer.withTemp size hsize).tempSize from hle)] at hall
  exact hall

theorem read_of_ne (mixer : Mixer) (reader : FrameReader ρ mixer.sampleMin mixer.sampleMax)
    (hne : ∀ r, readers ≠ [r]) (frame : MixFrame) :
    mixer.read reader readers frame = mixer.mixAll reader readers frame := by
  match readers, hne with
  | [], _ => rfl
  | [r], hne => exact absurd rfl (hne r)
  | _ :: _ :: _, _ => rfl

theorem mixAll_withTemp_iff (readers : List ρ) (hticks : mixer.channels ≤ frame.samples.length)
    (hsize : 0 < size) (hle : frame.samples.length ≤ size) :
    mixer.mixAll reader readers frame = (mixer.withTemp size hsize).mixAll reader readers frame ↔
      (mixer.enableTimestamps = true →
        lastStamp 0 (chunkStamps reader frame.samples.length readers frame.samples.length) =
          stampSum (pieces reader readers frame.samples.length)) := by
  rw [mixAll_withTemp readers hticks hsize hle, mixAll_eq reader readers hticks]
  cases readers with
  | nil =>
    have hlast : lastStamp 0 (chunkStamps reader frame.samples.length [] frame.samples.length) = 0 :=
      chunkStamps_of_nil (Nat.le_refl _) fun _ => rfl
    simp [hlast, pieces, stampSum]
  | cons r rest =>
    have hne : ((r :: rest).length : ℚ) ≠ 0 := by
      rw [length_cons]
      positivity
    cases mixer.enableTimestamps with
    | false => simp
    | true =>
      simp only [if_true, Except.ok.injEq, Prod.mk.injEq, and_true, MixFrame.mk.injEq, true_and, forall_const]
      rw [div_left_inj' hne, Nat.cast_inj]

end

section
variable {frame : MixFrame} {r : ρ} {piece : Piece}

section
variable (hticks : mixer.channels ≤ frame.samples.length)
include hticks

theorem pathIndependent_of_none (hread : (reader.read r frame.samples.length).1 = none) :
    PathIndependent mixer reader [r] frame ↔ PathCondition mixer reader [r] frame := by
  have hpieces : pieces reader [r] frame.samples.length = [] := by simp [pieces, hread]
  have hmix := mixAll_of_nil hticks hpieces
  have hsingle := readSingle_of_none hticks hread
  constructor
  · intro h
    have heq := hsingle.symm.trans ((h.single r rfl).trans hmix)
    simp only [Except.ok.injEq, Prod.mk.injEq, and_true, MixFrame.mk.injEq, true_and] at heq
    refine ⟨fun _ hr _ => ⟨heq.1, heq.2.1, fun hon => by simpa [hon] using heq.2.2⟩, ?_, fun _ => ?_⟩
    · intro _ piece hr hpiece
      cases hr
      rw [hread] at hpiece
      cases hpiece
    · rw [chunkStamps_of_nil (Nat.le_refl _) fun _ => hpieces, hpieces]
      rfl
  · intro h
    obtain ⟨hsamples, hflags, hcts⟩ := h.clean r rfl hread
    refine ⟨fun _ _ => ?_, fun _ _ _ => rfl, fun _ => ⟨_, _, hsingle, hsamples, hflags⟩⟩
    refine hsingle.trans (Eq.trans ?_ hmix.symm)
    rw [← hsamples, hflags]
    cases hon : mixer.enableTimestamps with
    | false => simp
    | true => simp [hcts hon]

theorem pathIndependent_of_some (hread : (reader.read r frame.samples.length).1 = some piece) :
    PathIndependent mixer reader [r] frame ↔ PathCondition mixer reader [r] frame := by
  have hpieces : stampSum (pieces reader [r] frame.samples.length) = piece.captureTs := by
    simp [pieces, hread, stampSum]
  have hmix := mixAll_of_some hticks hread
  have hsingle := readSingle_of_some hread
  constructor
  · intro h
    have heq := hsingle.symm.trans ((h.single r rfl).trans hmix)
    simp only [Except.ok.injEq, Prod.mk.injEq, and_true, MixFrame.mk.injEq, true_and] at heq
    refine ⟨?_, ?_, fun hon => ?_⟩
    · intro _ hr hnone
      cases hr
      rw [hread] at hnone
      cases hnone
    · intro _ piece' hr hpiece
      cases hr
      rw [hread] at hpiece
      cases hpiece
      exact heq.1
    · have hcts := heq.2
      simp only [hon, if_true, Nat.cast_inj] at hcts
      rw [hpieces, hcts]
  · intro h
    refine ⟨fun _ _ => ?_, fun _ _ _ => rfl, fun hnone => ?_⟩
    · refine hsingle.trans (Eq.trans ?_ hmix.symm)
      rw [h.duration r piece rfl hread]
      cases hon : mixer.enableTimestamps with
      | false => rfl
      | true => rw [h.stamps hon, hpieces]
    · have := hnone r mem_cons_self
      rw [hread] at this
      cases this

end

theorem pathIndependent_of_ne {readers : List ρ} (hne : ∀ r, readers ≠ [r])
    (hticks : mixer.channels ≤ frame.samples.length) :
    PathIndependent mixer reader readers frame ↔ PathCondition mixer reader readers frame := by
  have hpos := mixer.channels_pos.trans_le hticks
  constructor
  · intro h
    refine ⟨fun r hr => absurd hr (hne r), fun r _ hr => absurd hr (hne r), ?_⟩
    refine (mixAll_withTemp_iff readers hticks hpos (Nat.le_refl _)).mp ?_
    exact (read_of_ne mixer reader hne frame).symm.trans
      ((h.buffer _ hpos (Nat.le_refl _)).trans (read_of_ne (mixer.withTemp _ hpos) reader hne frame))
  · intro h
    refine ⟨fun r hr => absurd hr (hne r), fun size hsize hle => ?_, fun hnone => ?_⟩
    · exact (read_of_ne mixer reader hne frame).trans
        (((mixAll_withTemp_iff readers hticks hsize hle).mpr h.stamps).trans
          (read_of_ne (mixer.withTemp size hsize) reader hne frame).symm)
    · have hpieces : pieces reader readers frame.samples.length = [] := filterMap_eq_nil_iff.mpr hnone
      rw [read_of_ne mixer reader hne, mixAll_of_nil hticks hpieces]
      exact ⟨_, _, rfl, rfl, rfl⟩

end

/-- Mixing does not depend on the path or the temporary buffer exactly under the condition. -/
theorem pathIndependent_iff {ρ : Type} (mixer : Mixer) (reader : FrameReader ρ mixer.sampleMin mixer.sampleMax)
    (readers : List ρ) (frame : MixFrame) (hticks : mixer.channels ≤ frame.samples.length) :
    PathIndependent mixer reader readers frame ↔ PathCondition mixer reader readers frame := by
  by_cases hone : ∃ r, readers = [r]
  · obtain ⟨r, rfl⟩ := hone
    cases hread : (reader.read r frame.samples.length).1 with
    | none => exact pathIndependent_of_none hticks hread
    | some piece => exact pathIndependent_of_some hticks hread
  · exact pathIndependent_of_ne (fun r hr => hone ⟨r, hr⟩) hticks

/-- A tone from a position on, a nanosecond a sample; `none` is a reader that fails. -/
def toneReader : FrameReader (Option Nat) (-1) 1 where
  read
    | none, _ => (none, none)
    | some pos, n => (some ⟨List.replicate n 1, 2, n, 100 + pos⟩, some (pos + n))
  length_samples := by
    intro r n piece h
    cases r with
    | none => cases h
    | some pos => cases h; simp
  range_samples := by
    intro r n piece h s hs
    cases r with
    | none => cases h
    | some pos =>
      cases h
      rw [List.eq_of_mem_replicate hs]
      decide
  split_none := by
    intro r a b _ _ h
    cases r with
    | none => exact ⟨rfl, rfl⟩
    | some pos => cases h
  split_some := by
    intro r a b first _ _ h
    cases r with
    | none => cases h
    | some pos =>
      cases h
      refine ⟨⟨List.replicate b 1, 2, b, 100 + (pos + a)⟩, ⟨List.replicate (a + b) 1, 2, a + b, 100 + pos⟩, rfl, ?_,
        List.replicate_add a b 1, (BitVec.or_self).symm, rfl⟩
      simp only [Nat.add_assoc]

def smallMixer : Mixer where
  channels := 1
  channels_pos := by decide
  enableTimestamps := true
  tempSize := 1
  tempSize_pos := by decide
  sampleMin := -1
  sampleMin_le := by decide
  sampleMax := 1
  sampleMax_ge := by decide

def dirtyFrame : MixFrame := ⟨[1, 1], 0, 0, 0⟩

/-- Two readers, one of which fails, and a frame that fits into the temporary buffer. -/
theorem pathIndependent_toneReader :
    PathIndependent (smallMixer.withTemp 2 (by decide)) toneReader [some 0, none] dirtyFrame := by
  refine (pathIndependent_iff (smallMixer.withTemp 2 (by decide)) toneReader [some 0, none] dirtyFrame (by decide)).mpr
    ⟨fun r hr => (by cases hr), fun r piece hr => (by cases hr), fun _ => ?_⟩
  decide +kernel

/-- A single reader that fails leaves what was in the frame, where the general path leaves silence; and the
timestamp of two readers is that of the last chunk, not that of the first sample. -/
theorem dirtyFrame_mixed :
    (smallMixer.read toneReader [none] dirtyFrame).map (·.1.samples) = .ok [1, 1] ∧
      (smallMixer.mixAll toneReader [none] dirtyFrame).map (·.1.samples) = .ok [0, 0] ∧
      (smallMixer.read toneReader [some 0, some 0] dirtyFrame).map (·.1.captureTs) = .ok 101 ∧
      ((smallMixer.withTemp 2 (by decide)).read toneReader [some 0, some 0] dirtyFrame).map (·.1.captureTs) =
        .ok 100 := by
  refine ⟨rfl, rfl, ?_, ?_⟩
  · decide +kernel
  · decide +kernel

end Mixer
end Roc.Audio
