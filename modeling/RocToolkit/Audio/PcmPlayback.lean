import RocToolkit.Audio.Rounds
import Mathlib.Data.Stream.Init

/-!
# RocToolkit.Audio.PcmPlayback

What the PCM depacketizer plays. Every tick of its output is marked with its place: the number of a packet
among those the reader returned and the number of a tick in that packet, or nothing for silence (`Shows`). The
places grow along the whole output, so no tick is played twice or out of order.

When the reader has all packets in advance, the output is a prefix of one stream that does not depend on the
frames (`Upcoming`), as long as all silent ticks are the same.
-/

namespace Roc.Audio.Depacketizer

open List

variable {σ : Type}

/-- The `i`-th tick that `write_zeros` or `write_beep` writes. -/
def fillerTick (d : Depacketizer σ) (i : Nat) : Tick σ :=
  (List.range d.channels).map fun c => if d.beep then d.filler.beep (i * d.channels + c) else d.filler.zero

theorem filling_eq (d : Depacketizer σ) (n : Nat) : d.filling n = (List.range n).map d.fillerTick := rfl

abbrev Place := Nat × Nat

def Place.Before (a b : Place) : Prop := a.1 < b.1 ∨ (a.1 = b.1 ∧ a.2 < b.2)

/-- What is played at a stream position is the tick of a packet that covers the position, or silence; `d` is
the depacketizer before its first packet. -/
def Shows (d : Depacketizer σ) (position : StreamTimestamp) : Option Place → Tick σ → Prop
  | none, tick => ∃ i, tick = d.fillerTick i
  | some place, tick => ∃ packet, d.reader[place.1]? = some (some packet) ∧
      place.2 < ticksOf d.format d.channels packet ∧
      position = packet.streamTimestamp + BitVec.ofNat 32 place.2 ∧
      tick = d.format.tick d.channels packet.payload place.2

structure ShownFrom (d : Depacketizer σ) (position : StreamTimestamp) (marks : List (Option Place))
    (out : List (Tick σ)) : Prop where
  length : marks.length = out.length
  shows : ∀ (j : Nat) (hm : j < marks.length) (ho : j < out.length),
    d.Shows (position + BitVec.ofNat 32 j) marks[j] out[j]

def places (marks : List (Option Place)) : List Place := marks.filterMap id

theorem places_append (a b : List (Option Place)) : places (a ++ b) = places a ++ places b := filterMap_append

theorem ShownFrom.nil (d : Depacketizer σ) (position : StreamTimestamp) : d.ShownFrom position [] [] :=
  ⟨rfl, fun j hm _ => absurd hm (Nat.not_lt_zero j)⟩

variable {d origin : Depacketizer σ} {marks more : List (Option Place)}

theorem ShownFrom.append {position : StreamTimestamp}
    {out next : List (Tick σ)} (h1 : d.ShownFrom position marks out)
    (h2 : d.ShownFrom (position + BitVec.ofNat 32 out.length) more next) :
    d.ShownFrom position (marks ++ more) (out ++ next) := by
  refine ⟨by simp [h1.length, h2.length], fun j hm ho => ?_⟩
  by_cases hj : j < out.length
  · rw [getElem_append_left (by rw [h1.length]; exact hj), getElem_append_left hj]
    exact h1.shows j _ hj
  · rw [length_append] at hm ho
    have hlen := h1.length
    rw [getElem_append_right (by omega), getElem_append_right (by omega)]
    have hshows := h2.shows (j - marks.length) (by omega) (by omega)
    have hposition : position + BitVec.ofNat 32 out.length + BitVec.ofNat 32 (j - marks.length) =
        position + BitVec.ofNat 32 j := by
      rw [BitVec.add_assoc, ← BitVec.ofNat_add]
      congr 2
      omega
    rw [hposition] at hshows
    simpa only [hlen] using hshows

/-! ## Places along a run -/

structure SameSetup (d d' : Depacketizer σ) : Prop where
  format : d'.format = d.format
  filler : d'.filler = d.filler
  sampleSpec : d'.sampleSpec = d.sampleSpec
  beep : d'.beep = d.beep

/-- Everything before `place` is played, dropped or skipped; `origin` is the depacketizer before its first
packet. -/
inductive At (origin d : Depacketizer σ) : Place → Prop
  | waiting {number : Nat} (hwait : d.Waiting) (hreader : d.reader = origin.reader.drop number) :
      At origin d (number, 0)
  | playing {packet : PcmPacket} {number k gap : Nat} (hplaying : d.Playing packet k gap)
      (hpacket : origin.reader[number]? = some (some packet))
      (hreader : d.reader = origin.reader.drop (number + 1)) : At origin d (number, k)

/-- The places of `marks` grow, from `a` on and before `b`. -/
structure Between (a : Place) (marks : List (Option Place)) (b : Place) : Prop where
  sorted : (places marks).Pairwise Place.Before
  from_a : ∀ place ∈ places marks, ¬ place.Before a
  before_b : ∀ place ∈ places marks, place.Before b
  le : ¬ b.Before a

variable {b : Place} {number : Nat}

theorem Between.append {a c : Place} (h1 : Between a marks b)
    (h2 : Between b more c) : Between a (marks ++ more) c := by
  obtain ⟨hsorted1, hfrom1, hbefore1, hle1⟩ := h1
  obtain ⟨hsorted2, hfrom2, hbefore2, hle2⟩ := h2
  simp only [Place.Before] at *
  refine ⟨?_, ?_, ?_, ?_⟩
  · rw [places_append, pairwise_append]
    refine ⟨hsorted1, hsorted2, fun p hp q hq => ?_⟩
    have := hbefore1 p hp
    have := hfrom2 q hq
    simp only [Place.Before]
    omega
  · intro p hp
    rw [places_append, mem_append] at hp
    simp only [Place.Before]
    obtain hp | hp := hp
    · exact hfrom1 p hp
    · have := hfrom2 p hp
      omega
  · intro p hp
    rw [places_append, mem_append] at hp
    simp only [Place.Before]
    obtain hp | hp := hp
    · have := hbefore1 p hp
      omega
    · exact hbefore2 p hp
  · simp only [Place.Before]
    omega

theorem Between.silence {a : Place} (n : Nat) (hle : ¬ b.Before a) : Between a (List.replicate n none) b := by
  have hnil : places (List.replicate n none) = [] := by simp [places]
  exact ⟨by rw [hnil]; exact .nil, by simp [hnil], by simp [hnil], hle⟩

/-- `m` ticks of a packet from the `k`-th on. -/
def tickMarks (number k m : Nat) : List (Option Place) := (List.range m).map fun i => some (number, k + i)

theorem Between.ticks {k m : Nat} (hb : ¬ b.Before (number, k + m)) : Between (number, k) (tickMarks number k m) b := by
  have hplaces : places (tickMarks number k m) = (List.range m).map fun i => (number, k + i) := by
    simp [places, tickMarks, filterMap_map]
  simp only [Place.Before] at hb
  refine ⟨?_, ?_, ?_, ?_⟩
  · rw [hplaces, pairwise_map]
    exact pairwise_lt_range.imp fun hlt => .inr ⟨rfl, Nat.add_lt_add_left hlt k⟩
  · intro p hp
    rw [hplaces, mem_map] at hp
    obtain ⟨i, -, rfl⟩ := hp
    simp only [Place.Before]
    omega
  · intro p hp
    rw [hplaces, mem_map] at hp
    obtain ⟨i, hi, rfl⟩ := hp
    rw [mem_range] at hi
    simp only [Place.Before]
    omega
  · simp only [Place.Before]
    omega

theorem ShownFrom.silence (hsame : SameSetup origin d) (position : StreamTimestamp)
    (n : Nat) : origin.ShownFrom position (List.replicate n none) (d.filling n) := by
  refine ⟨by simp, fun j hm ho => ?_⟩
  rw [getElem_replicate]
  refine ⟨j, ?_⟩
  simp [filling_eq, fillerTick, channels, hsame.filler, hsame.beep, hsame.sampleSpec]

theorem ShownFrom.ticks {packet : PcmPacket} {k m : Nat}
    (hsame : SameSetup origin d) (hpacket : origin.reader[number]? = some (some packet))
    (hm : k + m ≤ ticksOf d.format d.channels packet) :
    origin.ShownFrom (packet.streamTimestamp + BitVec.ofNat 32 k) (tickMarks number k m) (d.ticksFrom packet k m) := by
  have hchannels : d.channels = origin.channels := by rw [channels, channels, hsame.sampleSpec]
  refine ⟨by simp [tickMarks], fun j hj _ => ?_⟩
  have hj' : j < m := by simpa [tickMarks] using hj
  rw [hsame.format, hchannels] at hm
  simp only [tickMarks, ticksFrom, getElem_map, getElem_range, Shows]
  refine ⟨packet, hpacket, by omega, ?_, by rw [hsame.format, hchannels]⟩
  rw [BitVec.add_assoc, ← BitVec.ofNat_add]

section
variable {format : PcmFormat σ} {channels number : Nat} {firstPacket : Bool} {streamTs : StreamTimestamp}
  {all reader left : List (Option PcmPacket)} {found : Option PcmPacket} {dec : PcmDecoder}

theorem Fetched.drop (h : Fetched format channels firstPacket streamTs reader found left dec)
    (hreader : reader = all.drop number) :
    (∃ packet number', found = some packet ∧ number ≤ number' ∧ all[number']? = some (some packet) ∧
        left = all.drop (number' + 1)) ∨
      ∃ number', found = Option.none ∧ number ≤ number' ∧ left = all.drop number' := by
  induction h generalizing number with
  | none _ hnil => exact .inr ⟨number, rfl, Nat.le_refl _, by rw [← hreader, hnil]⟩
  | noData _ =>
    have hnext : all.drop (number + 1) = (all.drop number).tail := by rw [tail_drop]
    exact .inr ⟨number + 1, rfl, Nat.le_succ _, by rw [hnext, ← hreader, tail_cons]⟩
  | found _ _ =>
    have hnext : all.drop (number + 1) = (all.drop number).tail := by rw [tail_drop]
    refine .inl ⟨_, number, rfl, Nat.le_refl _, ?_, by rw [hnext, ← hreader, tail_cons]⟩
    have hhead := congrArg (·[0]?) hreader
    simpa using hhead.symm
  | dropped _ _ _ ih =>
    have hnext : all.drop (number + 1) = (all.drop number).tail := by rw [tail_drop]
    obtain ⟨packet, number', hfound, hle, hpacket, hleft⟩ | ⟨number', hfound, hle, hleft⟩ :=
      ih (by rw [hnext, ← hreader, tail_cons])
    · exact .inl ⟨packet, number', hfound, by omega, hpacket, hleft⟩
    · exact .inr ⟨number', hfound, by omega, hleft⟩

end

section
variable {size : Nat} {origin d d' : Depacketizer σ} {info info' : FrameInfo} {out : List (Tick σ)}

theorem Step.same (h : Step size d info out d' info') (hsame : SameSetup origin d) : SameSetup origin d' := by
  obtain ⟨hformat, hfiller, hspec, hbeep⟩ := hsame
  cases h with
  | fetch _ _ _ _ _ => exact ⟨hformat, hfiller, hspec, hbeep⟩
  | gap _ _ _ _ => rw [readMissingSamples_eq]; exact ⟨hformat, hfiller, hspec, hbeep⟩
  | play _ _ _ _ _ | finish _ _ _ _ => rw [played, advanceCapture_eq]; exact ⟨hformat, hfiller, hspec, hbeep⟩
  | rest _ _ _ _ _ _ =>
    rw [readMissingSamples_eq, advanceCapture_eq]
    exact ⟨hformat, hfiller, hspec, hbeep⟩

theorem Step.streamTs (h : Step size d info out d' info') (hfirst : d.firstPacket = false) :
    d'.firstPacket = false ∧ d'.streamTs = d.streamTs + BitVec.ofNat 32 out.length := by
  cases h with
  | fetch _ _ _ _ _ => simp [started, hfirst]
  | gap _ _ _ _ => simp [readMissingSamples_eq, hfirst]
  | play _ _ _ _ _ | finish _ _ _ _ => simp [played, advanceCapture_eq, hfirst]
  | rest _ _ _ _ _ _ => simp [readMissingSamples_eq, advanceCapture_eq, hfirst]

variable {packet : PcmPacket} {place : Place}

theorem Playing.unique {packet' : PcmPacket} {k k' gap gap' : Nat} (h : d.Playing packet k gap)
    (h' : d.Playing packet' k' gap') : packet' = packet ∧ k' = k ∧ gap' = gap := by
  obtain rfl : packet' = packet := by
    have := h.inHand.symm.trans h'.inHand
    simpa using this.symm
  have havail := h.reading.avail.symm.trans h'.reading.avail
  have hle := h.reading.le
  have hle' := h'.reading.le
  obtain rfl : k' = k := by omega
  have hahead := h.ahead.symm.trans h'.ahead
  have hgap := h.gap_lt
  have hgap' := h'.gap_lt
  exact ⟨rfl, rfl, by bv_omega⟩

theorem At.of_playing {k gap : Nat} (hat : At origin d place) (hplaying : d.Playing packet k gap) :
    ∃ number, place = (number, k) ∧ origin.reader[number]? = some (some packet) ∧
      d.reader = origin.reader.drop (number + 1) := by
  cases hat with
  | waiting hwait _ => have := hwait.inHand.symm.trans hplaying.inHand; cases this
  | playing hplaying' hpacket hreader =>
    obtain ⟨rfl, rfl, rfl⟩ := hplaying.unique hplaying'
    exact ⟨_, rfl, hpacket, hreader⟩

theorem At.of_waiting (hat : At origin d place) (hwait : d.Waiting) :
    ∃ number, place = (number, 0) ∧ d.reader = origin.reader.drop number := by
  cases hat with
  | waiting _ hreader => exact ⟨_, rfl, hreader⟩
  | playing hplaying _ _ => have := hwait.inHand.symm.trans hplaying.inHand; cases this

theorem Step.shown (h : Step size d info out d' info') (hsame : SameSetup origin d) (hat : At origin d place) :
    ∃ marks place', At origin d' place' ∧ origin.ShownFrom d.streamTs marks out ∧
      Between place marks place' := by
  cases h with
  | fetch _ hwait _ hfetched hplaying =>
    obtain ⟨number, rfl, hreader⟩ := hat.of_waiting hwait
    obtain ⟨packet, number', hfound, hle, hpacket, hleft⟩ | ⟨_, hfound, -, -⟩ := hfetched.drop hreader
    · cases hfound
      exact ⟨[], _, .playing hplaying hpacket hleft, .nil _ _, .silence 0 (by simp [Place.Before]; omega)⟩
    · cases hfound
  | gap hplaying _ _ hn =>
    obtain ⟨number, rfl, hpacket, hreader⟩ := hat.of_playing hplaying
    refine ⟨_, _, .playing (hplaying.gapFilled (by omega)) hpacket ?_, .silence hsame _ _, .silence _ ?_⟩
    · rw [readMissingSamples_eq]; exact hreader
    · simp [Place.Before]
  | play hplaying hroom hm hle hdec =>
    rename_i packet k m decoder
    obtain ⟨number, rfl, hpacket, hreader⟩ := hat.of_playing hplaying
    have hposition : d.streamTs = _ := (hplaying.ahead.trans (by simp)).symm
    refine ⟨tickMarks number k m, _, .playing (hplaying.played hdec) hpacket ?_, ?_, .ticks ?_⟩
    · rw [played, advanceCapture_eq]; exact hreader
    · rw [hposition]; exact .ticks hsame hpacket hle
    · simp [Place.Before]
  | finish hplaying hroom hm hdec =>
    rename_i packet k m decoder
    obtain ⟨number, rfl, hpacket, hreader⟩ := hat.of_playing hplaying
    have hposition : d.streamTs = _ := (hplaying.ahead.trans (by simp)).symm
    refine ⟨tickMarks number k m, (number + 1, 0), .waiting (Waiting.played hdec _) ?_, ?_, .ticks ?_⟩
    · rw [played, advanceCapture_eq]; exact hreader
    · rw [hposition]; exact .ticks hsame hpacket hm.le
    · simp [Place.Before]
  | rest _ hwait _ hfetched hdec hn =>
    obtain ⟨number, rfl, hreader⟩ := hat.of_waiting hwait
    obtain ⟨_, _, hfound, -, -, -⟩ | ⟨number', -, hle, hleft⟩ := hfetched.drop hreader
    · cases hfound
    · refine ⟨_, (number', 0), .waiting ?_ ?_, .silence hsame _ _, .silence _ ?_⟩
      · rw [readMissingSamples_eq, advanceCapture_eq]; exact ⟨hwait.inHand, hdec⟩
      · rw [readMissingSamples_eq, advanceCapture_eq]; exact hleft
      · simp [Place.Before]; omega

section
variable (h : Steps size d info out d' info')
include h

theorem Steps.same (hsame : SameSetup origin d) : SameSetup origin d' := by
  induction h with
  | refl => exact hsame
  | cons hstep _ ih => exact ih (hstep.same hsame)

theorem Steps.streamTs (hfirst : d.firstPacket = false) :
    d'.firstPacket = false ∧ d'.streamTs = d.streamTs + BitVec.ofNat 32 out.length := by
  induction h with
  | refl => exact ⟨hfirst, by simp⟩
  | cons hstep _ ih =>
    obtain ⟨hfirst1, hstep⟩ := hstep.streamTs hfirst
    obtain ⟨hend, hsteps⟩ := ih hfirst1
    refine ⟨hend, ?_⟩
    rw [hsteps, hstep, length_append, BitVec.ofNat_add, BitVec.add_assoc]

theorem Steps.full (hfull : info.numFilledSamples = size) : out = [] ∧ d' = d := by
  cases h with
  | refl => exact ⟨rfl, rfl⟩
  | cons hstep _ => cases hstep with
    | fetch _ _ hroom _ _ => omega
    | gap _ hroom _ _ => omega
    | play _ hroom _ _ _ => omega
    | finish _ hroom _ _ => omega
    | rest _ _ hroom _ _ _ => omega

variable {place : Place}

theorem Steps.shown_after_first (hsame : SameSetup origin d)
    (hfirst : d.firstPacket = false) (hat : At origin d place) :
    ∃ marks place', At origin d' place' ∧ origin.ShownFrom d.streamTs marks out ∧
      Between place marks place' := by
  induction h generalizing place with
  | refl => exact ⟨[], place, hat, .nil _ _, .silence 0 (by simp [Place.Before])⟩
  | cons hstep _ ih =>
    obtain ⟨marks, place1, hat1, hshown, hbetween⟩ := hstep.shown hsame hat
    obtain ⟨hfirst1, hposition⟩ := hstep.streamTs hfirst
    obtain ⟨more, place', hat', hshown', hbetween'⟩ := ih (hstep.same hsame) hfirst1 hat1
    rw [hposition] at hshown'
    exact ⟨marks ++ more, place', hat', hshown.append hshown', hbetween.append hbetween'⟩

theorem Steps.shown (hsame : SameSetup origin d) (hat : At origin d place) : ∃ marks place', At origin d' place' ∧
      origin.ShownFrom (d'.streamTs - BitVec.ofNat 32 out.length) marks out ∧ Between place marks place' := by
  cases hfirst : d.firstPacket with
  | false =>
    obtain ⟨marks, place', hat', hshown, hbetween⟩ := h.shown_after_first hsame hfirst hat
    refine ⟨marks, place', hat', ?_, hbetween⟩
    rwa [(h.streamTs hfirst).2, BitVec.add_sub_cancel]
  | true =>
    cases h with
    | refl => exact ⟨[], place, hat, .nil _ _, .silence 0 (by simp [Place.Before])⟩
    | cons hstep hsteps =>
      obtain ⟨marks, place1, hat1, hshown, hbetween⟩ := hstep.shown hsame hat
      have hsame1 := hstep.same hsame
      cases hstep with
      | fetch _ _ _ _ hplaying =>
        obtain ⟨more, place', hat', hshown', hbetween'⟩ := hsteps.shown_after_first hsame1 hplaying.firstPacket hat1
        obtain rfl : marks = [] := length_eq_zero_iff.mp hshown.length
        refine ⟨more, place', hat', ?_, hbetween.append hbetween'⟩
        rwa [nil_append, (hsteps.streamTs hplaying.firstPacket).2, BitVec.add_sub_cancel]
      | gap hplaying _ _ _ | play hplaying _ _ _ _ => rw [hplaying.firstPacket] at hfirst; cases hfirst
      | finish hplaying _ _ _ => rw [hplaying.firstPacket] at hfirst; cases hfirst
      | rest _ _ _ _ _ hn =>
        obtain ⟨rfl, rfl⟩ := hsteps.full (by simp; omega)
        refine ⟨marks, place1, hat1, ?_, hbetween⟩
        rw [append_nil, length_filling, readMissingSamples_eq, advanceCapture_eq]
        simpa only [BitVec.add_sub_cancel] using hshown

end
end

/-! ## Frames -/

/-- Frames of the given sizes are read from `d` on, and each tick of them stands where its mark says. -/
inductive Playback (origin : Depacketizer σ) : List Nat → Depacketizer σ → List (Option Place) → Prop
  | nil {d : Depacketizer σ} : Playback origin [] d []
  | cons {d d' : Depacketizer σ} {size : Nat} {rest : List Nat} {frame : Frame (Tick σ)}
      {marks more : List (Option Place)} (hread : d.readFrame size = .ok (frame, d'))
      (hlength : frame.samples.length = size)
      (hshown : origin.ShownFrom (d'.streamTs - BitVec.ofNat 32 size) marks frame.samples)
      (hrest : Playback origin rest d' more) : Playback origin (size :: rest) d (marks ++ more)

theorem Playback.safe {sizes : List Nat} (h : Playback origin sizes d marks) (hinv : d.Inv) : SafeFrames sizes d := by
  induction h with
  | nil => trivial
  | cons hread _ _ _ ih =>
    have hsafe := safeFrame_of_ok hinv hread
    refine ⟨hsafe, fun frame d1 hread1 => ?_⟩
    obtain ⟨out, d2, info, hread2, hsteps, -⟩ := readFrame_steps hinv hsafe
    rw [hread] at hread1 hread2
    cases hread1
    cases hread2
    exact ih (hsteps.inv hinv)

theorem playback_of_safe : ∀ {sizes : List Nat} {d : Depacketizer σ} {place : Place},
    SafeFrames sizes d → d.Inv → SameSetup origin d → At origin d place →
    ∃ marks place', Playback origin sizes d marks ∧ Between place marks place' := by
  intro sizes
  induction sizes with
  | nil =>
    intro d place _ _ _ _
    exact ⟨[], place, .nil, .silence 0 (by simp [Place.Before])⟩
  | cons size rest ih =>
    intro d place hsafe hinv hsame hat
    obtain ⟨out, d', info, hread, hsteps, hlength⟩ := readFrame_steps hinv hsafe.1
    obtain ⟨marks, place1, hat', hshown, hbetween⟩ := hsteps.shown hsame hat
    obtain ⟨more, place', hplayback, hbetween'⟩ := ih (hsafe.2 _ _ hread) (hsteps.inv hinv) (hsteps.same hsame) hat'
    rw [hlength] at hshown
    exact ⟨marks ++ more, place', .cons hread hlength hshown hplayback, hbetween.append hbetween'⟩

/-! ## Packets that are available in advance -/

/-- All silent ticks are the same; so it is with `write_zeros`. -/
def Steady (d : Depacketizer σ) : Prop := ∀ i, d.fillerTick i = d.fillerTick 0

/-- What will be played from a stream position on: packets that are late are dropped, and silence is put in
front of a packet that is ahead and after the last one. -/
def streamFrom (d : Depacketizer σ) (firstPacket : Bool) (streamTs : StreamTimestamp) :
    List (Option PcmPacket) → Stream' (Tick σ)
  | some packet :: rest =>
    if firstPacket = false ∧ Late d.format d.channels streamTs packet then
      d.streamFrom firstPacket streamTs rest
    else
      List.replicate (gapBefore firstPacket streamTs packet) (d.fillerTick 0) ++ₛ
        (d.ticksFrom packet (skipped firstPacket streamTs packet)
            (ticksOf d.format d.channels packet - skipped firstPacket streamTs packet) ++ₛ
          d.streamFrom false (packet.streamTimestamp + BitVec.ofNat 32 (ticksOf d.format d.channels packet)) rest)
  | _ => Stream'.const (d.fillerTick 0)

inductive Upcoming (origin d : Depacketizer σ) : Stream' (Tick σ) → Prop
  | waiting (hwait : d.Waiting) : Upcoming origin d (origin.streamFrom d.firstPacket d.streamTs d.reader)
  | playing {packet : PcmPacket} {k gap : Nat} (hplaying : d.Playing packet k gap) :
      Upcoming origin d (List.replicate gap (origin.fillerTick 0) ++ₛ
        (origin.ticksFrom packet k (ticksOf origin.format origin.channels packet - k) ++ₛ origin.streamFrom false
            (packet.streamTimestamp + BitVec.ofNat 32 (ticksOf origin.format origin.channels packet)) d.reader))

theorem replicate_append_const {α : Type} (n : Nat) (a : α) :
    List.replicate n a ++ₛ Stream'.const a = Stream'.const a := by
  induction n with
  | zero => rfl
  | succ n ih => rw [replicate_succ, Stream'.cons_append_stream, ih]; exact (Stream'.const_eq a).symm

theorem ticksFrom_append (d : Depacketizer σ) (packet : PcmPacket) (k m n : Nat) :
    d.ticksFrom packet k (m + n) = d.ticksFrom packet k m ++ d.ticksFrom packet (k + m) n := by
  simp [ticksFrom, range_add, Nat.add_assoc]

section
variable {origin d : Depacketizer σ}

section
variable (hsame : SameSetup origin d)
include hsame

theorem SameSetup.channels : d.channels = origin.channels := by
  rw [Depacketizer.channels, Depacketizer.channels, hsame.sampleSpec]

theorem SameSetup.ticksFrom (packet : PcmPacket) (k m : Nat) :
    d.ticksFrom packet k m = origin.ticksFrom packet k m := by
  rw [Depacketizer.ticksFrom, Depacketizer.ticksFrom, hsame.format, hsame.channels]

theorem SameSetup.filling (hsteady : origin.Steady) (n : Nat) :
    d.filling n = List.replicate n (origin.fillerTick 0) := by
  refine ext_getElem (by simp) fun i _ _ => ?_
  rw [getElem_replicate, ← hsteady i]
  simp [filling_eq, fillerTick, hsame.filler, hsame.beep, hsame.channels]

end

variable {firstPacket : Bool} {streamTs : StreamTimestamp} {reader left : List (Option PcmPacket)}
  {found : Option PcmPacket} {dec : PcmDecoder}

section
variable (h : Fetched origin.format origin.channels firstPacket streamTs reader found left dec)
include h

theorem Fetched.streamFrom_found {packet : PcmPacket} (hfound : found = some packet) :
    origin.streamFrom firstPacket streamTs reader =
      List.replicate (gapBefore firstPacket streamTs packet) (origin.fillerTick 0) ++ₛ
        (origin.ticksFrom packet (skipped firstPacket streamTs packet)
            (ticksOf origin.format origin.channels packet - skipped firstPacket streamTs packet) ++ₛ
          origin.streamFrom false
            (packet.streamTimestamp + BitVec.ofNat 32 (ticksOf origin.format origin.channels packet)) left) := by
  induction h with
  | none _ _ => cases hfound
  | noData _ => cases hfound
  | found _ htime =>
    cases hfound
    rw [streamFrom, if_neg]
    rintro ⟨hfirst, hlate⟩
    rw [hfirst] at htime
    exact htime.resolve_left (by simp) hlate
  | dropped hfirst hlate _ ih => rw [streamFrom, if_pos ⟨hfirst, hlate⟩, ih hfound]

theorem Fetched.streamFrom_none (hfound : found = Option.none) (hall : Option.none ∉ reader) :
    origin.streamFrom firstPacket streamTs reader = Stream'.const (origin.fillerTick 0) ∧ left = [] := by
  induction h with
  | none _ hnil => subst hnil; exact ⟨rfl, rfl⟩
  | noData _ => exact absurd mem_cons_self hall
  | found _ _ => cases hfound
  | dropped hfirst hlate _ ih =>
    rw [streamFrom, if_pos ⟨hfirst, hlate⟩]
    exact ih hfound fun hmem => hall (mem_cons_of_mem _ hmem)

theorem Fetched.mem_left {entry : Option PcmPacket} (hmem : entry ∈ left) : entry ∈ reader := by
  induction h with
  | none _ _ => cases hmem
  | noData _ | found _ _ => exact mem_cons_of_mem _ hmem
  | dropped _ _ _ ih => exact mem_cons_of_mem _ (ih hmem)

end

theorem Upcoming.of_waiting (h : Upcoming origin d s) (hwait : d.Waiting) :
    s = origin.streamFrom d.firstPacket d.streamTs d.reader := by
  cases h with
  | waiting _ => rfl
  | playing hplaying => have := hwait.inHand.symm.trans hplaying.inHand; cases this

theorem Upcoming.of_playing {packet : PcmPacket} {k gap : Nat} (h : Upcoming origin d s)
    (hplaying : d.Playing packet k gap) :
    s = List.replicate gap (origin.fillerTick 0) ++ₛ
      (origin.ticksFrom packet k (ticksOf origin.format origin.channels packet - k) ++ₛ origin.streamFrom false
          (packet.streamTimestamp + BitVec.ofNat 32 (ticksOf origin.format origin.channels packet)) d.reader) := by
  cases h with
  | waiting hwait => have := hwait.inHand.symm.trans hplaying.inHand; cases this
  | playing hplaying' =>
    obtain ⟨rfl, rfl, rfl⟩ := hplaying.unique hplaying'
    rfl

variable {size : Nat} {d' : Depacketizer σ} {info info' : FrameInfo} {out : List (Tick σ)}

theorem Step.upcoming (h : Step size d info out d' info') (hsame : SameSetup origin d)
    (hsteady : origin.Steady) (hall : none ∉ d.reader) (hs : Upcoming origin d s) :
    none ∉ d'.reader ∧ ∃ s', s = out ++ₛ s' ∧ Upcoming origin d' s' := by
  cases h with
  | fetch _ hwait _ hfetched hplaying =>
    rw [hsame.format, hsame.channels] at hfetched
    refine ⟨fun hmem => hall (hfetched.mem_left hmem), _, rfl, ?_⟩
    rw [hs.of_waiting hwait, hfetched.streamFrom_found rfl]
    exact .playing hplaying
  | gap hplaying hroom hgap hn =>
    rename_i packet k gap n
    have hsplit : List.replicate gap (origin.fillerTick 0) =
        d.filling n ++ List.replicate (gap - n) (origin.fillerTick 0) := by
      rw [hsame.filling hsteady, replicate_append_replicate, Nat.add_sub_cancel' (by omega)]
    refine ⟨by rw [readMissingSamples_eq]; exact hall, _, ?_, .playing (hplaying.gapFilled (by omega))⟩
    rw [hs.of_playing hplaying, hsplit, Stream'.append_append_stream, readMissingSamples_eq]
  | play hplaying hroom hm hle hdec =>
    rename_i packet k m decoder
    rw [hsame.format, hsame.channels] at hle
    have hsplit : origin.ticksFrom packet k (ticksOf origin.format origin.channels packet - k) =
        d.ticksFrom packet k m ++
          origin.ticksFrom packet (k + m) (ticksOf origin.format origin.channels packet - (k + m)) := by
      rw [hsame.ticksFrom, ← ticksFrom_append]
      congr 1
      omega
    refine ⟨by rw [played, advanceCapture_eq]; exact hall, _, ?_, .playing (hplaying.played hdec)⟩
    rw [hs.of_playing hplaying, hsplit, Stream'.append_append_stream, played, advanceCapture_eq]
    rfl
  | finish hplaying hroom hm hdec =>
    rename_i packet k m decoder
    have hwait := Waiting.played (d := d) hdec m
    have hahead := hplaying.ahead
    rw [hsame.format, hsame.channels] at hm
    refine ⟨by rw [played, advanceCapture_eq]; exact hall, _, ?_, .waiting hwait⟩
    rw [hs.of_playing hplaying, hsame.ticksFrom, ← hm, Nat.add_sub_cancel_left, played, advanceCapture_eq]
    simp only [replicate_zero, Stream'.nil_append_stream, hplaying.firstPacket]
    congr 2
    rw [BitVec.ofNat_add]
    bv_omega
  | rest _ hwait hroom hfetched hdec hn =>
    rw [hsame.format, hsame.channels] at hfetched
    obtain ⟨hconst, rfl⟩ := hfetched.streamFrom_none rfl hall
    refine ⟨by rw [readMissingSamples_eq, advanceCapture_eq]; exact not_mem_nil, _, ?_, .waiting ?_⟩
    · rw [hs.of_waiting hwait, hconst, hsame.filling hsteady, readMissingSamples_eq, advanceCapture_eq]
      exact (replicate_append_const _ _).symm
    · rw [readMissingSamples_eq, advanceCapture_eq]
      exact ⟨hwait.inHand, hdec⟩

theorem Steps.upcoming (h : Steps size d info out d' info') (hsame : SameSetup origin d)
    (hsteady : origin.Steady) (hall : none ∉ d.reader) (hs : Upcoming origin d s) :
    none ∉ d'.reader ∧ ∃ s', s = out ++ₛ s' ∧ Upcoming origin d' s' := by
  induction h generalizing s with
  | refl => exact ⟨hall, s, rfl, hs⟩
  | cons hstep _ ih =>
    obtain ⟨hall1, s1, rfl, hs1⟩ := hstep.upcoming hsame hsteady hall hs
    obtain ⟨hall', s', rfl, hs'⟩ := ih (hstep.same hsame) hall1 hs1
    exact ⟨hall', s', by rw [Stream'.append_append_stream], hs'⟩

end

def output (frames : List (Frame (Tick σ))) : List (Tick σ) := frames.flatMap Frame.samples

theorem readFrames_upcoming (hsteady : origin.Steady) :
    ∀ {sizes : List Nat} {d d' : Depacketizer σ} {frames : List (Frame (Tick σ))} {s : Stream' (Tick σ)},
      readFrames sizes d = .ok (frames, d') → d.Inv → SameSetup origin d → none ∉ d.reader →
      Upcoming origin d s → output frames = s.take sizes.sum := by
  intro sizes
  induction sizes with
  | nil => intro d d' frames s hread _ _ _ _; cases hread; rfl
  | cons size rest ih =>
    intro d d' frames s hread hinv hsame hall hs
    obtain ⟨⟨frame, d1⟩, hframe, hread⟩ := bind_eq_ok.mp hread
    obtain ⟨⟨more, d2⟩, hmore, hread⟩ := bind_eq_ok.mp hread
    cases hread
    obtain ⟨out, d2, info, hframe', hsteps, hlength⟩ := readFrame_steps hinv (safeFrame_of_ok hinv hframe)
    rw [hframe] at hframe'
    cases hframe'
    obtain ⟨hall1, s1, rfl, hs1⟩ := hsteps.upcoming hsame hsteady hall hs
    have hnext := ih hmore (hsteps.inv hinv) (hsteps.same hsame) hall1 hs1
    rw [sum_cons, ← hlength, ← Stream'.append_take, ← hnext]
    rfl

def init (format : PcmFormat σ) (filler : Filler σ) (sampleSpec : SampleSpec) (beep : Bool)
    (reader : List (Option PcmPacket)) : Depacketizer σ :=
  { format, filler, sampleSpec, beep, reader }

section
variable (format : PcmFormat σ) (filler : Filler σ) (sampleSpec : SampleSpec) (beep : Bool)
  (reader : List (Option PcmPacket))

theorem init_waiting : (init format filler sampleSpec beep reader).Waiting := ⟨rfl, rfl, rfl⟩

theorem init_inv : (init format filler sampleSpec beep reader).Inv := .inl (init_waiting ..)

theorem SameSetup.refl (d : Depacketizer σ) : SameSetup d d := ⟨rfl, rfl, rfl, rfl⟩

end

theorem readFrame_of_nil (hwait : d.Waiting) (hreader : d.reader = []) {size : Nat} (hsize : size % 4294967296 ≠ 0) :
    ∃ frame d', d.readFrame size = .ok (frame, d') ∧ frame.samples = d.filling size ∧ d'.Waiting ∧
      d'.reader = [] ∧ SameSetup d d' := by
  obtain ⟨info, hsamples⟩ : ∃ info : FrameInfo, d.readSamples {} size = .ok (d.filling size,
      ((d.advanceCapture size).readMissingSamples size).2, { info with numFilledSamples := size }) := by
    refine ⟨d.stampInfo {}, ?_⟩
    have hupdate : d.updatePacket {} = .ok (d, {}) := by
      simp only [updatePacket, hwait.inHand, Option.isSome_none, Bool.false_eq_true, if_false, hreader, fetchLoop,
        ok_bind, pure_eq_ok]
      rw [← hreader, ← hwait.inHand]
    have hnone : d.packet.isSome = false := by rw [hwait.inHand]; rfl
    simp only [readSamples, hupdate, ok_bind, hnone, Bool.false_eq_true, if_false, fillRest, pure_eq_ok,
      stampInfo_numFilledSamples, Nat.zero_add, readMissingSamples_eq, advanceCapture_eq]
    rfl
  have hrounds : d.frameRounds size = size + 1 + 1 := by simp [frameRounds, hreader]
  have hnot : ¬ size = 0 := by
    rintro rfl
    exact hsize rfl
  have hframe : d.readFrame size = .ok (frameOf (d.filling size) { info with numFilledSamples := size } size,
      ((d.advanceCapture size).readMissingSamples size).2) := by
    simp only [readFrame, hrounds, readLoop, Nat.le_zero, hnot, if_false, Nat.sub_zero, hsamples, ok_bind,
      Nat.le_refl, if_true, pure_eq_ok, append_nil, setFrameProps, frameOf, hsize]
  refine ⟨_, _, hframe, rfl, ?_⟩
  rw [readMissingSamples_eq, advanceCapture_eq]
  exact ⟨⟨hwait.inHand, hwait.idle⟩, hreader, rfl, rfl, rfl, rfl⟩

theorem steady_of_output (d : Depacketizer σ) (hwait : d.Waiting) (hreader : d.reader = [])
    (hsame : ∀ sizes sizes' : List Nat, ∀ result result', sizes.sum = sizes'.sum →
      readFrames sizes d = .ok result → readFrames sizes' d = .ok result' →
      output result.1 = output result'.1) : d.Steady := by
  -- a frame of `n + m` ticks against one of `n` and one of `m`
  have hshift : ∀ n m i, n % 4294967296 ≠ 0 → m % 4294967296 ≠ 0 → (n + m) % 4294967296 ≠ 0 → i < m →
      d.fillerTick (n + i) = d.fillerTick i := by
    intro n m i hn hm hnm hi
    obtain ⟨whole, d0, hwhole, hwholeOut, -⟩ := readFrame_of_nil hwait hreader hnm
    obtain ⟨first, d1, hfirst, hfirstOut, hwait1, hreader1, hsetup⟩ := readFrame_of_nil hwait hreader hn
    obtain ⟨last, d2, hlast, hlastOut, -⟩ := readFrame_of_nil hwait1 hreader1 hm
    have heq := hsame [n + m] [n, m] ([whole], d0) ([first, last], d2) (by simp)
      (by simp only [readFrames, hwhole, ok_bind, pure_eq_ok])
      (by simp only [readFrames, hfirst, hlast, ok_bind, pure_eq_ok])
    have htick := congrArg (·[n + i]?) heq
    simp [output, hwholeOut, hfirstOut, hlastOut, filling_eq, hi] at htick
    rw [htick]
    simp [fillerTick, hsetup.filler, hsetup.beep, hsetup.channels]
  intro i
  by_cases hi : i % 4294967296 = 0
  · rcases Nat.eq_zero_or_pos i with rfl | hpos
    · rfl
    · obtain ⟨j, rfl⟩ : ∃ j, i = j + 1 := ⟨i - 1, by omega⟩
      exact (hshift j 2 1 (by omega) (by decide) (by omega) (by decide)).trans
        (hshift 1 1 0 (by decide) (by decide) (by decide) (by decide))
  · by_cases hnext : (i + 1) % 4294967296 = 0
    · exact hshift i 2 0 hi (by decide) (by omega) (by decide)
    · exact hshift i 1 0 hi (by decide) hnext (by decide)

section
variable (format : PcmFormat σ) (filler : Filler σ) (sampleSpec : SampleSpec) (beep : Bool)

/-- The frames of any sizes are read without a panic, each tick at its position is a tick of a packet that
covers it or silence, and no tick of a packet is played twice or out of order: exactly if no frame has the duration 0 and
no packet is read that is half the range away and empty (or longer than half the range). The output does not depend on the frames,
whatever packets there are in advance: exactly if all silent ticks are the same. -/
theorem playback_iff_safe :
    (∀ (reader : List (Option PcmPacket)) (sizes : List Nat),
      (∃ marks, Playback (init format filler sampleSpec beep reader) sizes
          (init format filler sampleSpec beep reader) marks ∧ (places marks).Pairwise Place.Before) ↔
        SafeFrames sizes (init format filler sampleSpec beep reader)) ∧
    ((∀ (packets : List PcmPacket) (sizes sizes' : List Nat) (result result'), sizes.sum = sizes'.sum →
        readFrames sizes (init format filler sampleSpec beep (packets.map some)) = .ok result →
        readFrames sizes' (init format filler sampleSpec beep (packets.map some)) = .ok result' →
        output result.1 = output result'.1) ↔
      (init format filler sampleSpec beep []).Steady) := by
  refine ⟨fun reader sizes => ⟨?_, fun hsafe => ?_⟩, fun hsame => ?_, fun hsteady => ?_⟩
  · rintro ⟨marks, hplayback, -⟩
    exact hplayback.safe (init_inv ..)
  · obtain ⟨marks, place, hplayback, hbetween⟩ := playback_of_safe hsafe (init_inv ..) (.refl _)
      (At.waiting (init_waiting ..) (List.drop_zero).symm)
    exact ⟨marks, hplayback, hbetween.sorted⟩
  · exact steady_of_output _ (init_waiting ..) rfl (hsame [])
  · intro packets sizes sizes' result result' hsum hread hread'
    have hall : none ∉ (init format filler sampleSpec beep (packets.map some)).reader := by simp [init]
    rw [readFrames_upcoming hsteady hread (init_inv ..) ⟨rfl, rfl, rfl, rfl⟩ hall (.waiting (init_waiting ..)),
      readFrames_upcoming hsteady hread' (init_inv ..) ⟨rfl, rfl, rfl, rfl⟩ hall (.waiting (init_waiting ..)),
      hsum]

theorem steady_of_zeros (reader : List (Option PcmPacket)) : (init format filler sampleSpec false reader).Steady :=
  fun _ => rfl

end

def pcm8 : PcmFormat UInt8 where
  bitWidth := 8
  bitWidth_ge := by decide
  unpack data bitOff := data.getD (bitOff / 8) 0

def sawtooth : Filler UInt8 := ⟨0, UInt8.ofNat⟩

def monoSpec : SampleSpec where
  numChannels := 1
  sampleRate := 1000000000
  samplesPerChanToNs := Int.ofNat
  numChannels_pos := Nat.one_pos

/-- After one packet of one tick at 0, an empty packet whose timestamp is `1 - 2 ^ 31`. -/
def halfAwayReader : List (Option PcmPacket) :=
  [some { streamTimestamp := 0, duration := 1, captureTimestamp := 0, payload := [7] },
   some { streamTimestamp := 0x80000001, duration := 0, captureTimestamp := 0, payload := [] }]

/-- The empty packet is the end of the depacketizer; and a beep begins anew in each frame. -/
theorem halfAwayReader_panics :
    (readFrames [1] (init pcm8 sawtooth monoSpec false halfAwayReader)).map (output ·.1) = .ok [[7]] ∧
      (readFrames [1, 1] (init pcm8 sawtooth monoSpec false halfAwayReader)).map (output ·.1) =
        .error (.panic "depacketizer: can't shift packet") ∧
      (readFrames [2] (init pcm8 sawtooth monoSpec true [])).map (output ·.1) = .ok [[0], [1]] ∧
      (readFrames [1, 1] (init pcm8 sawtooth monoSpec true [])).map (output ·.1) = .ok [[0], [0]] := by
  exact ⟨rfl, rfl, rfl, rfl⟩

end Roc.Audio.Depacketizer
