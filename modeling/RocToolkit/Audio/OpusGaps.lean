import RocToolkit.Audio.OpusDepacketizer

/-!
# RocToolkit.Audio.OpusGaps

Where the forward error correction of a packet is put. libopus rebuilds from a packet `P` the `n`
samples right before it, so a call of `decode_fec` is in its place (`InPlace`) when the stream
position is `n` before `P`. The calls a depacketizer makes while it reads frames are those of the
states it asks for a chunk in (`calls_readFrames`), and in such a state the call is in its place
exactly when no more than one chunk is missing before the packet (`AtMostOneMissing`).
-/

namespace Roc.Audio

open List

/-- A `decode_fec` call puts the samples where the packet says they belong. -/
def DecoderCall.InPlace {ρ : Type} : DecoderCall ρ → Prop
  | .decodeFec packet n streamTs => streamTs + BitVec.ofNat 32 n = packet.streamTimestamp
  | _ => True

namespace OpusDepacketizer

variable {δ ρ σ : Type} {d : OpusDepacketizer δ ρ σ}

/-! ## The calls of one chunk -/

/-- The packet `ensure_chunk_` will have in hand: the one it kept, or the first the reader hands
over that is not late. -/
def upcoming (d : OpusDepacketizer δ ρ σ) : Option (Packet ρ) :=
  match d.nextPacket with
  | some packet => some packet
  | none => (fetchLoop d.firstPacket d.streamTs d.reader).1

/-- The call of `decode_missing_chunk_`. -/
def missingCalls (d : OpusDepacketizer δ ρ σ) : List (DecoderCall ρ) :=
  let n := d.concealSamples
  if n = 0 || !supportedFrameSize n then []
  else
    match d.nextPacket with
    | some packet =>
      if n = packet.duration.toNat then [.decodeFec packet n d.streamTs]
      else [.decodeMissing n d.streamTs]
    | none => [.decodeMissing n d.streamTs]

@[simp] theorem calls_decodeImp (payload : Option ρ) (n : Nat) (fec : Bool) :
    (d.decodeImp payload n fec).2.calls = d.calls := by
  unfold decodeImp
  dsimp only
  split
  · rfl
  · split
    · rfl
    · split <;> rfl

@[simp] theorem calls_decodeSyntheticChunk (n : Nat) : (d.decodeSyntheticChunk n).2.calls = d.calls := by
  unfold decodeSyntheticChunk
  split <;> rfl

@[simp] theorem calls_captureConcealed (n : Nat) : (d.captureConcealed n).calls = d.calls := by
  unfold captureConcealed
  split
  · split <;> rfl
  · rfl

theorem calls_conceal (n : Nat) : (d.conceal n).2.calls = d.calls ++ match d.nextPacket with
      | some packet =>
        if n = packet.duration.toNat then [.decodeFec packet n d.streamTs]
        else [.decodeMissing n d.streamTs]
      | none => [.decodeMissing n d.streamTs] := by
  unfold conceal
  cases d.nextPacket with
  | none => exact calls_decodeImp none n false
  | some packet =>
    dsimp only
    by_cases hn : n = packet.duration.toNat
    · rw [if_pos hn, if_pos hn]
      exact calls_decodeImp (some packet.payload) n true
    · rw [if_neg hn, if_neg hn]
      exact calls_decodeImp none n false

theorem calls_decodeMissingChunk : d.decodeMissingChunk.2.calls = d.calls ++ d.missingCalls := by
  unfold decodeMissingChunk missingCalls
  dsimp only
  split
  · simp
  · rw [← calls_conceal]
    split
    all_goals
      rename_i heq
      simp [heq]

/-- The packet is decoded where it stands; when it does not decode it is gone, and what is missing
is made up without it. -/
def packetCalls (d : OpusDepacketizer δ ρ σ) (packet : Packet ρ) : List (DecoderCall ρ) := .decode packet d.streamTs ::
    match d.decode packet with
    | (none, d) => missingCalls { d with nextPacket := none }
    | (some _, _) => []

@[simp] theorem calls_capturePacket (packet : Packet ρ) (skip : Nat) :
    (d.capturePacket packet skip).calls = d.calls := by
  unfold capturePacket
  split <;> rfl

theorem calls_decodePacketChunk (packet : Packet ρ) :
    (d.decodePacketChunk packet).2.calls = d.calls ++ d.packetCalls packet := by
  have hcalls : (d.decode packet).2.calls = d.calls ++ [.decode packet d.streamTs] :=
    calls_decodeImp (some packet.payload) 0 false
  unfold decodePacketChunk packetCalls
  rcases hdec : d.decode packet with ⟨_ | decoded, d'⟩
  · rw [hdec] at hcalls
    dsimp only at hcalls ⊢
    rw [calls_decodeMissingChunk, hcalls, append_assoc, singleton_append]
  · rw [hdec] at hcalls
    dsimp only at hcalls ⊢
    split
    · exact hcalls
    · rw [calls_capturePacket]
      exact hcalls

/-- The calls of `ensure_chunk_` once a packet was looked for. -/
def nextCalls (d : OpusDepacketizer δ ρ σ) : List (DecoderCall ρ) :=
  match d.nextPacket with
  | none => []
  | some packet =>
    let d := d.startStream packet
    if !streamTimestampLt d.streamTs packet.streamTimestamp then d.packetCalls packet
    else d.missingCalls

@[simp] theorem calls_startStream (packet : Packet ρ) : (d.startStream packet).calls = d.calls := by
  unfold startStream
  split <;> rfl

theorem calls_nextChunk : d.nextChunk.2.calls = d.calls ++ d.nextCalls := by
  unfold nextChunk nextCalls
  cases d.nextPacket with
  | none =>
    dsimp only
    split
    · simp
    · simp
  | some packet =>
    dsimp only
    split
    · rw [calls_decodePacketChunk, calls_startStream]
    · rw [calls_decodeMissingChunk, calls_startStream]

def fetched (d : OpusDepacketizer δ ρ σ) : OpusDepacketizer δ ρ σ :=
  (fetchPacket { d with chunkOffset := 0, chunkSize := 0, chunkSource := .none } {}).1

theorem fetchPacket_fst (info info' : FrameInfo) : (d.fetchPacket info).1 = (d.fetchPacket info').1 := by
  unfold fetchPacket
  split <;> rfl

@[simp] theorem calls_fetchPacket (info : FrameInfo) : (d.fetchPacket info).1.calls = d.calls := by
  unfold fetchPacket
  split <;> rfl

/-- The calls of `ensure_chunk_`. -/
def chunkCalls (d : OpusDepacketizer δ ρ σ) : List (DecoderCall ρ) :=
  if d.chunkOffset < d.chunkSize then [] else d.fetched.nextCalls

theorem calls_ensureChunk (info : FrameInfo) : (d.ensureChunk info).2.1.calls = d.calls ++ d.chunkCalls := by
  unfold ensureChunk chunkCalls
  split
  · simp
  · dsimp only
    rw [calls_nextChunk, calls_fetchPacket, fetchPacket_fst info {}]
    rfl

@[simp] theorem calls_advanceCapture (n : Nat) : (d.advanceCapture n).calls = d.calls := by
  unfold advanceCapture
  split <;> rfl

section
variable (info : FrameInfo) (left : Nat)
include info left

@[simp] theorem calls_fillRest : (d.fillRest info left).2.1.calls = d.calls := by
  unfold fillRest
  dsimp only
  split <;> exact calls_advanceCapture _

@[simp] theorem calls_copyChunk : (d.copyChunk info left).2.1.calls = d.calls := by
  unfold copyChunk
  dsimp only
  split <;> split <;> try split
  all_goals exact calls_advanceCapture _

theorem calls_readSamples : (d.readSamples info left).2.1.calls = d.calls ++ d.chunkCalls := by
  unfold readSamples
  rw [← calls_ensureChunk info]
  split
  · rename_i heq
    rw [heq, calls_copyChunk]
  · rename_i heq
    rw [heq, calls_fillRest]

end

/-! ## The calls of a run -/

/-- The states in which `read_frame_` asks for a chunk. -/
def loopStates (total : Nat) : Nat → OpusDepacketizer δ ρ σ → FrameInfo → List (OpusDepacketizer δ ρ σ)
  | 0, _, _ => []
  | fuel + 1, d, info =>
    if total ≤ info.numFilledSamples then []
    else
      let (_, d', info') := d.readSamples info (total - info.numFilledSamples)
      d :: loopStates total fuel d' info'

def visited : List Nat → OpusDepacketizer δ ρ σ → List (OpusDepacketizer δ ρ σ)
  | [], _ => []
  | size :: rest, d =>
    let total := size * d.sampleSpec.numChannels
    loopStates total (d.frameRounds total) d {} ++ visited rest (d.readFrame size).2

theorem calls_readLoop (total fuel : Nat) (info : FrameInfo) : (readLoop total fuel d info).2.1.calls =
      d.calls ++ (loopStates total fuel d info).flatMap chunkCalls := by
  induction fuel generalizing d info with
  | zero => simp [readLoop, loopStates]
  | succ fuel ih =>
    by_cases hdone : total ≤ info.numFilledSamples
    · simp [readLoop, loopStates, hdone]
    · simp only [readLoop, loopStates, hdone, if_false, flatMap_cons]
      rw [ih, calls_readSamples, append_assoc]

theorem calls_readFrames (frames : List Nat) :
    (readFrames frames d).2.calls = d.calls ++ (visited frames d).flatMap chunkCalls := by
  induction frames generalizing d with
  | nil => simp [readFrames, visited]
  | cons size rest ih =>
    simp only [readFrames, visited, flatMap_append]
    rw [ih, ← append_assoc, ← calls_readLoop]
    rfl

/-! ## Forward error correction in its place -/

theorem nextPacket_fetched : d.fetched.nextPacket = d.upcoming := by
  unfold fetched fetchPacket upcoming
  dsimp only
  cases d.nextPacket <;> rfl

/-- No more than one chunk is missing before the packet: when a chunk is needed and the packet to
come starts behind the stream position, lasts as long as the chunk before (if there was one), and is
of a length libopus knows, then it starts no further away than its own length. -/
def AtMostOneMissing (d : OpusDepacketizer δ ρ σ) : Prop := d.chunkSize ≤ d.chunkOffset → d.firstPacket = false →
    ∀ packet, d.upcoming = some packet → streamTimestampLt d.streamTs packet.streamTimestamp →
      supportedFrameSize packet.duration.toNat →
      (d.lastPacketDuration = 0 ∨ d.lastPacketDuration = packet.duration) →
      (packet.streamTimestamp - d.streamTs).toNat ≤ packet.duration.toNat

theorem supportedFrameSize_pos {n : Nat} (h : supportedFrameSize n = true) : 0 < n := by
  rcases Nat.eq_zero_or_pos n with rfl | hpos
  · cases h
  · exact hpos

variable {packet : Packet ρ}

theorem gap_eq (hnext : d.nextPacket = some packet) : d.gap = packet.streamTimestamp - d.streamTs := by
  simp only [gap, hnext, streamTimestampDiff, BitVec.ofInt_toInt]

theorem sub_ne_zero_of_lt {a b : StreamTimestamp} (h : streamTimestampLt a b = true) : b - a ≠ 0 := by
  intro heq
  have hab : a = b := by bv_omega
  simp [streamTimestampLt, streamTimestampDiff, hab] at h

theorem concealSamples_eq (hnext : d.nextPacket = some packet)
    (hlt : streamTimestampLt d.streamTs packet.streamTimestamp = true) :
    d.concealSamples = min (packet.streamTimestamp - d.streamTs).toNat
      (if d.lastPacketDuration.toNat ≠ 0 then d.lastPacketDuration.toNat else packet.duration.toNat) := by
  have hgap : d.gap ≠ 0 := by
    rw [gap_eq hnext]
    exact sub_ne_zero_of_lt hlt
  have hlast : d.lastPacketDuration ≠ 0 ↔ d.lastPacketDuration.toNat ≠ 0 :=
    not_congr (BitVec.toNat_inj (y := 0#32)).symm
  simp only [concealSamples, hnext]
  rw [if_pos hgap, gap_eq hnext, apply_ite BitVec.toNat, if_congr hlast rfl rfl]

theorem add_ofNat_eq_iff {a b dur : StreamTimestamp} :
    a + BitVec.ofNat 32 dur.toNat = b ↔ (b - a).toNat = dur.toNat := by
  rw [BitVec.ofNat_toNat, BitVec.setWidth_eq]
  constructor
  · rintro rfl
    bv_omega
  · intro h
    have : b - a = dur := BitVec.eq_of_toNat_eq h
    bv_omega

/-- A chunk made up before a packet: `gap` samples are missing, `last` is what the chunk before took
(0 without one), and `n` is what is made up. -/
theorem inPlace_iff_gap_le {gap last dur n : Nat} {supported : Nat → Bool} (hpos : supported dur = true → 0 < dur)
    (hn : n = min gap (if last ≠ 0 then last else dur)) :
    (n ≠ 0 → supported n = true → n = dur → gap = dur) ↔
      (supported dur = true → (last = 0 ∨ last = dur) → gap ≤ dur) := by
  constructor
  · intro h hsup hlast
    have hpref : (if last ≠ 0 then last else dur) = dur := by
      rcases hlast with rfl | rfl
      · rfl
      · rw [ite_self]
    rw [hpref] at hn
    by_contra hgap
    have hndur : n = dur := by omega
    have := h (by have := hpos hsup; omega) (hndur ▸ hsup) hndur
    omega
  · intro h _ hsup hndur
    rw [hndur] at hsup
    by_cases hlast : last = 0 ∨ last = dur
    · have := h hsup hlast
      split at hn <;> omega
    · rw [if_pos (by omega)] at hn
      omega

theorem missingCalls_inPlace (hnext : d.nextPacket = some packet)
    (hlt : streamTimestampLt d.streamTs packet.streamTimestamp = true) :
    (∀ call ∈ d.missingCalls, call.InPlace) ↔
      (supportedFrameSize packet.duration.toNat → (d.lastPacketDuration = 0 ∨ d.lastPacketDuration = packet.duration) →
        (packet.streamTimestamp - d.streamTs).toNat ≤ packet.duration.toNat) := by
  have hlast : d.lastPacketDuration = 0 ∨ d.lastPacketDuration = packet.duration ↔
      d.lastPacketDuration.toNat = 0 ∨ d.lastPacketDuration.toNat = packet.duration.toNat :=
    or_congr (BitVec.toNat_inj (y := 0#32)).symm BitVec.toNat_inj.symm
  rw [hlast, ← inPlace_iff_gap_le supportedFrameSize_pos (concealSamples_eq hnext hlt)]
  simp only [missingCalls, hnext]
  split_ifs with hn hdur
  · simp only [not_mem_nil, false_imp_iff, implies_true, true_iff]
    intro h0 hsup
    simp [h0, hsup] at hn
  · simp only [mem_singleton, forall_eq, DecoderCall.InPlace]
    rw [hdur, add_ofNat_eq_iff]
    simp only [Bool.or_eq_true, decide_eq_true_eq, not_or, Bool.not_eq_true', Bool.not_eq_false] at hn
    rw [hdur] at hn
    exact ⟨fun h _ _ _ => h, fun h => h hn.1 hn.2 rfl⟩
  · simp only [mem_singleton, forall_eq, DecoderCall.InPlace, true_iff]
    intro _ _ h
    exact absurd h hdur

theorem packetCalls_inPlace (packet : Packet ρ) : ∀ call ∈ d.packetCalls packet, call.InPlace := by
  intro call hmem
  unfold packetCalls at hmem
  rcases mem_cons.mp hmem with rfl | hmem
  · trivial
  · rcases hdec : d.decode packet with ⟨_ | decoded, d'⟩
    · rw [hdec] at hmem
      simp only [missingCalls] at hmem
      split at hmem
      · cases hmem
      · rw [mem_singleton.mp hmem]
        trivial
    · rw [hdec] at hmem
      cases hmem

theorem fetched_frame : d.fetched.streamTs = d.streamTs ∧ d.fetched.firstPacket = d.firstPacket ∧
    d.fetched.lastPacketDuration = d.lastPacketDuration := by
  unfold fetched fetchPacket
  dsimp only
  cases d.nextPacket <;> exact ⟨rfl, rfl, rfl⟩

theorem not_lt_self (a : StreamTimestamp) : streamTimestampLt a a = false := by
  simp [streamTimestampLt, streamTimestampDiff]

theorem nextCalls_inPlace (hnext : d.nextPacket = some packet) : (∀ call ∈ d.nextCalls, call.InPlace) ↔
      (d.firstPacket = false → streamTimestampLt d.streamTs packet.streamTimestamp →
        supportedFrameSize packet.duration.toNat →
        (d.lastPacketDuration = 0 ∨ d.lastPacketDuration = packet.duration) →
        (packet.streamTimestamp - d.streamTs).toNat ≤ packet.duration.toNat) := by
  simp only [nextCalls, hnext]
  by_cases hfirst : d.firstPacket = true
  · -- the first packet is where the stream starts, so nothing is missing before it
    have hlt : streamTimestampLt (d.startStream packet).streamTs packet.streamTimestamp = false := by
      simp [startStream, hfirst, not_lt_self]
    rw [hlt]
    exact iff_of_true (packetCalls_inPlace packet) fun h => by simp [hfirst] at h
  · have hstart : d.startStream packet = d := by simp [startStream, hfirst]
    rw [hstart]
    by_cases hlt : streamTimestampLt d.streamTs packet.streamTimestamp = true
    · rw [hlt]
      simpa [hfirst] using missingCalls_inPlace hnext hlt
    · simp only [hlt, Bool.not_false, if_true, Bool.false_eq_true, false_imp_iff, implies_true, iff_true]
      exact packetCalls_inPlace packet

theorem chunkCalls_inPlace : (∀ call ∈ d.chunkCalls, call.InPlace) ↔ d.AtMostOneMissing := by
  obtain ⟨hts, hfirst, hlast⟩ := fetched_frame (d := d)
  unfold chunkCalls AtMostOneMissing
  by_cases hleft : d.chunkOffset < d.chunkSize
  · simp [hleft, Nat.not_le.mpr hleft]
  · rw [if_neg hleft]
    cases hup : d.upcoming with
    | none =>
      have hnext : d.fetched.nextPacket = none := nextPacket_fetched.trans hup
      simp [nextCalls, hnext]
    | some packet =>
      rw [nextCalls_inPlace (nextPacket_fetched.trans hup), hts, hfirst, hlast]
      constructor
      · intro h _ hf packet' heq
        cases heq
        exact h hf
      · intro h hf
        exact h (Nat.not_lt.mp hleft) hf packet rfl

/-- Forward error correction lands in the gap it was made for, in every run from a new
depacketizer, exactly if in every state that asks for a chunk at most one is missing before the
packet to come. -/
theorem decodeFec_in_place_iff (lib : Libopus δ ρ σ) (libState : δ) (filler : Filler σ) (spec : SampleSpec)
    (beep : Bool) (reader : List (Option (Packet ρ))) (frames : List Nat) :
    (∀ call ∈ (readFrames frames (new lib libState filler spec beep reader)).2.calls, call.InPlace) ↔
      ∀ d ∈ visited frames (new lib libState filler spec beep reader), d.AtMostOneMissing := by
  rw [calls_readFrames]
  simp only [new, List.nil_append, List.mem_flatMap, forall_exists_index, and_imp]
  constructor
  · intro h d hd
    exact chunkCalls_inPlace.mp fun call hcall => h call d hd hcall
  · intro h call d hd hcall
    exact chunkCalls_inPlace.mpr (h d hd) call hcall

def plainLibopus : Libopus Unit Nat Nat where
  nbSamples payload := payload
  decodeFloat _ _ requested _ := (some (List.replicate requested 1), ())

def monoSpec : SampleSpec where
  numChannels := 1
  sampleRate := 48000
  samplesPerChanToNs n := n * 1000000000 / 48000
  numChannels_pos := Nat.one_pos

def packetAt (streamTs : StreamTimestamp) : Packet Nat := ⟨streamTs, 120, 0, 120⟩

/-- Of four packets the two in the middle are lost: the samples that belong right before the last
one are put where the second packet would have been. -/
theorem decodeFec_misplaced :
    let d := (readFrames [120, 120] (new plainLibopus () ⟨0, fun _ => 0⟩ monoSpec false
      [some (packetAt 0), some (packetAt 360)])).2
    DecoderCall.decodeFec (packetAt 360) 120 120 ∈ d.calls ∧
      ¬ (DecoderCall.decodeFec (packetAt 360) 120 120).InPlace := by
  refine ⟨by decide +kernel, ?_⟩
  simp only [DecoderCall.InPlace, packetAt]
  decide

end OpusDepacketizer

end Roc.Audio
