import RocToolkit.Audio.PcmPlayback

/-!
# RocToolkit.Audio.PcmCapture

Capture timestamps of the PCM depacketizer. A `Clock` gives every packet its position in the stream, of which
the stream timestamp is the low 32 bits, and every position its capture time; packets are stamped with it.
While the depacketizer runs, `next_capture_ts_` is the capture time of the next tick of the packet in hand, or
of the stream position when there is none (`Follows`).

The capture time of a frame is computed backwards from there, by what the frame has so far. This goes wrong in
one case: the frame ends before the packet in hand begins (`Beyond`).
-/

namespace Roc.Audio

open List

structure Clock where
  zero : Int
  rate : Int
  rate_pos : 0 < rate
  position : PcmPacket → Int

def Stands (ts : StreamTimestamp) (s : Int) : Prop := (ts.toNat : Int) = s % 2 ^ 32

instance (ts : StreamTimestamp) (s : Int) : Decidable (Stands ts s) := inferInstanceAs (Decidable (_ = _))

namespace Clock

def time (clock : Clock) (s : Int) : Int := clock.zero + clock.rate * s

structure Stamped (clock : Clock) (packet : PcmPacket) : Prop where
  stands : Stands packet.streamTimestamp (clock.position packet)
  captureTimestamp : packet.captureTimestamp = clock.time (clock.position packet)
  pos : 0 < packet.captureTimestamp

def Exact (clock : Clock) (spec : SampleSpec) : Prop := ∀ n : Nat, spec.samplesPerChanToNs n = clock.rate * n

theorem time_add (clock : Clock) (s t : Int) : clock.time (s + t) = clock.time s + clock.rate * t := by
  rw [time, time, Int.mul_add]; omega

theorem time_le (clock : Clock) {s t : Int} (h : s ≤ t) : clock.time s ≤ clock.time t := by
  rw [time, time]
  have := Int.mul_le_mul_of_nonneg_left h clock.rate_pos.le
  omega

end Clock

theorem Stands.add {ts : StreamTimestamp} {s : Int} (h : Stands ts s) (n : Nat) :
    Stands (ts + BitVec.ofNat 32 n) (s + n) := by
  simp only [Stands, BitVec.toNat_add, BitVec.toNat_ofNat] at *
  omega

namespace Depacketizer

variable {σ : Type}

/-- Every packet that a call of `update_packet_` looks at is less than half the range away from the stream
position, as 32-bit timestamps demand. -/
def NearReader (clock : Clock) (s : Int) (format : PcmFormat σ) (channels : Nat) (streamTs : StreamTimestamp) :
    List (Option PcmPacket) → Prop
  | some packet :: rest =>
    -2 ^ 31 < clock.position packet - s ∧ clock.position packet - s < 2 ^ 31 ∧
      (Late format channels streamTs packet → NearReader clock s format channels streamTs rest)
  | _ => True

/-- The same for all such calls while a frame is filled from the position `s` on. -/
def NearFrom (clock : Clock) (size : Nat) (d : Depacketizer σ) (info : FrameInfo) (s : Int) : Prop :=
  ∀ out d' info', Steps size d info out d' info' → d'.firstPacket = false →
    NearReader clock (s + out.length) d'.format d'.channels d'.streamTs d'.reader

/-- `next_capture_ts_` belongs to the stream position `s`. -/
structure Follows (clock : Clock) (d : Depacketizer σ) (s : Int) : Prop where
  exact : clock.Exact d.sampleSpec
  stamped : ∀ packet, some packet ∈ d.reader → clock.Stamped packet
  firstPacket : d.firstPacket = false
  stands : Stands d.streamTs s
  valid : d.validCaptureTs = true
  pos : 0 < clock.time s
  waiting : d.Waiting → d.nextCaptureTs = clock.time s
  playing : ∀ {packet : PcmPacket} {k gap : Nat}, d.Playing packet k gap → d.nextCaptureTs = clock.time (s + gap)

section
variable {clock : Clock} {s : Int} {format : PcmFormat σ} {channels : Nat} {firstPacket : Bool}
  {streamTs : StreamTimestamp} {reader left : List (Option PcmPacket)} {found : Option PcmPacket}
  {packet : PcmPacket} {dec : PcmDecoder}

section
variable (h : Fetched format channels firstPacket streamTs reader found left dec) (hfound : found = some packet)
include h hfound

theorem Fetched.near (hnear : NearReader clock s format channels streamTs reader) :
    -2 ^ 31 < clock.position packet - s ∧ clock.position packet - s < 2 ^ 31 := by
  induction h with
  | none _ _ => cases hfound
  | noData _ => cases hfound
  | found _ _ => cases hfound; exact ⟨hnear.1, hnear.2.1⟩
  | dropped _ hlate _ ih => exact ih hfound (hnear.2.2 hlate)

theorem Fetched.mem_reader : some packet ∈ reader := by
  induction h with
  | none _ _ => cases hfound
  | noData _ => cases hfound
  | found _ _ => cases hfound; exact mem_cons_self
  | dropped _ _ _ ih => exact mem_cons_of_mem _ (ih hfound)

end

theorem near_positions (hstream : Stands streamTs s) (hpacket : Stands packet.streamTimestamp (clock.position packet))
    (hlow : -2 ^ 31 < clock.position packet - s) (hhigh : clock.position packet - s < 2 ^ 31) :
    clock.position packet + skipped false streamTs packet = s + gapBefore false streamTs packet ∧
      (skipped false streamTs packet = 0 → clock.position packet = s + gapBefore false streamTs packet) := by
  simp only [Stands] at hstream hpacket
  rw [skipped, gapBefore]
  by_cases hlt : streamTimestampLt packet.streamTimestamp streamTs = true
  · simp only [hlt, and_self, if_true, or_true]
    rw [streamTimestampLt_iff] at hlt
    constructor
    · bv_omega
    · bv_omega
  · simp only [hlt, and_false, if_false, Bool.false_eq_true, or_self]
    rw [streamTimestampLt_iff] at hlt
    constructor
    · bv_omega
    · bv_omega

end

/-! ## The capture time of the stream position -/

section
variable {clock : Clock} {s : Int} {size : Nat} {d d' : Depacketizer σ} {info info' : FrameInfo}
  {out : List (Tick σ)}

variable {packet : PcmPacket} {left : List (Option PcmPacket)} {decoder : PcmDecoder}

theorem Waiting.not_playing (hwait : d.Waiting) {k gap : Nat} : ¬ d.Playing packet k gap := fun hplaying => by
  have := hwait.inHand.symm.trans hplaying.inHand
  cases this

theorem Follows.later (h : Follows clock d s) (n : Nat) : 0 < clock.time (s + n) :=
  lt_of_lt_of_le h.pos (clock.time_le (by omega))

theorem started_follows {k gap : Nat}
    (hexact : clock.Exact d.sampleSpec) (hleft : ∀ packet, some packet ∈ left → clock.Stamped packet)
    (hstamped : clock.Stamped packet) (hpos : 0 < clock.time s)
    (hstands : Stands (if d.firstPacket then packet.streamTimestamp else d.streamTs) s)
    (hskipped : skipped d.firstPacket d.streamTs packet = k) (hposition : clock.position packet + k = s + gap)
    (hplaying : (started { d with reader := left } packet decoder).Playing packet k gap) :
    Follows clock (started { d with reader := left } packet decoder) s where
  exact := hexact
  stamped := hleft
  firstPacket := rfl
  stands := hstands
  valid := by simp [started, hstamped.pos.ne']
  pos := hpos
  waiting hwait := absurd hplaying hwait.not_playing
  playing h := by
    obtain ⟨-, -, hgap⟩ := hplaying.unique h
    rw [hgap, ← hposition, clock.time_add, ← hstamped.captureTimestamp, ← hexact k]
    by_cases hk : k = 0
    · have hzero := hexact 0
      simp only [Nat.cast_zero, mul_zero] at hzero
      simp [started, hskipped, hk, hzero]
    · simp [started, hskipped, hk, hstamped.pos.ne']

theorem Follows.fetched {dec : PcmDecoder}
    (h : Follows clock d s) (hnear : NearReader clock s d.format d.channels d.streamTs d.reader)
    (hfetched : Fetched d.format d.channels d.firstPacket d.streamTs d.reader (some packet) left dec)
    (hplaying : (started { d with reader := left } packet decoder).Playing packet
      (skipped d.firstPacket d.streamTs packet) (gapBefore d.firstPacket d.streamTs packet)) :
    Follows clock (started { d with reader := left } packet decoder) s := by
  have hstamped := h.stamped packet (hfetched.mem_reader rfl)
  obtain ⟨hlow, hhigh⟩ := hfetched.near rfl hnear
  refine started_follows h.exact (fun p hp => h.stamped p (hfetched.mem_left hp)) hstamped h.pos ?_ rfl ?_ hplaying
  · simpa [h.firstPacket] using h.stands
  · rw [h.firstPacket]
    exact (near_positions h.stands hstamped.stands hlow hhigh).1

theorem Step.follows (h : Step size d info out d' info') (hf : Follows clock d s)
    (hnear : NearReader clock s d.format d.channels d.streamTs d.reader) : Follows clock d' (s + out.length) := by
  have hpos := hf.later out.length
  obtain ⟨hfirst, hts⟩ := h.streamTs hf.firstPacket
  have hstands : Stands d'.streamTs (s + out.length) := by rw [hts]; exact hf.stands.add _
  cases h with
  | fetch _ hwait _ hfetched hplaying =>
    rw [length_nil, Nat.cast_zero, add_zero]
    exact hf.fetched hnear hfetched hplaying
  | gap hplaying hroom hgap hn =>
    rename_i packet k gap n
    have hplaying' := hplaying.gapFilled (n := n) (by omega)
    rw [readMissingSamples_eq] at *
    refine ⟨hf.exact, hf.stamped, hf.firstPacket, hstands, hf.valid, hpos,
      fun hwait => absurd hplaying' hwait.not_playing, fun h => ?_⟩
    obtain ⟨rfl, rfl, rfl⟩ := hplaying'.unique h
    rw [length_filling, hf.playing hplaying]
    congr 1
    omega
  | play hplaying hroom hm hle hdec =>
    rename_i packet k m decoder
    have hplaying' := hplaying.played hdec
    have hnext := hf.playing hplaying
    rw [played, advanceCapture_eq] at *
    refine ⟨hf.exact, hf.stamped, hf.firstPacket, hstands, hf.valid, hpos,
      fun hwait => absurd hplaying' hwait.not_playing, fun h => ?_⟩
    obtain ⟨rfl, rfl, rfl⟩ := hplaying'.unique h
    simp only [length_ticksFrom, hf.valid, if_true, hnext, hf.exact m, Nat.cast_zero, add_zero, clock.time_add]
  | finish hplaying hroom hm hdec =>
    rename_i packet k m decoder
    have hwait' := Waiting.played (d := d) hdec m
    have hnext := hf.playing hplaying
    rw [played, advanceCapture_eq] at *
    refine ⟨hf.exact, hf.stamped, hf.firstPacket, hstands, hf.valid, hpos, fun _ => ?_,
      fun h => absurd h hwait'.not_playing⟩
    simp only [length_ticksFrom, hf.valid, if_true, hnext, hf.exact m, Nat.cast_zero, add_zero, clock.time_add]
  | rest dropped hwait hroom hfetched hdec hn =>
    rename_i left dec n
    rw [readMissingSamples_eq, advanceCapture_eq] at *
    refine ⟨hf.exact, fun p hp => hf.stamped p (hfetched.mem_left hp), hf.firstPacket, hstands, hf.valid, hpos,
      fun _ => ?_, fun h => absurd (hwait.inHand.symm.trans h.inHand) (by simp)⟩
    simp only [length_filling, hf.valid, if_true, hf.waiting hwait, hf.exact n, clock.time_add]

end

/-! ## The capture time of a frame -/

/-- How far ahead the packet begins that will be taken from the reader; the first packet is never ahead, but
when it is empty the next one may be. -/
def awaited (format : PcmFormat σ) (channels : Nat) : Bool → StreamTimestamp → List (Option PcmPacket) → Nat
  | true, _, some packet :: rest =>
    if ticksOf format channels packet = 0 then
      awaited format channels false packet.streamTimestamp rest
    else 0
  | false, streamTs, some packet :: rest =>
    if Late format channels streamTs packet then awaited format channels false streamTs rest
    else gapBefore false streamTs packet
  | _, _, _ => 0

/-- How far ahead the next packet to be played begins; 0 if none is in sight. A packet in hand that is played to
its end does not count. -/
def ahead (d : Depacketizer σ) : Nat :=
  match d.packet with
  | none => awaited d.format d.channels d.firstPacket d.streamTs d.reader
  | some _ =>
    if d.decoder.streamPos = d.streamTs ∧ d.decoder.streamAvail = 0 then
      awaited d.format d.channels d.firstPacket d.streamTs d.reader
    else (d.decoder.streamPos - d.streamTs).toNat

section
variable {format : PcmFormat σ} {channels : Nat} {streamTs : StreamTimestamp}
  {reader left : List (Option PcmPacket)} {found : Option PcmPacket} {packet : PcmPacket} {dec : PcmDecoder}

section
variable (h : Fetched format channels false streamTs reader found left dec)
include h

theorem Fetched.awaited_found (hfound : found = some packet) :
    awaited format channels false streamTs reader = gapBefore false streamTs packet := by
  induction h with
  | none _ _ => cases hfound
  | noData _ => cases hfound
  | found _ htime =>
    cases hfound
    rw [awaited, if_neg (htime.resolve_left (by simp))]
  | dropped _ hlate _ ih => rw [awaited, if_pos hlate, ih hfound]

theorem Fetched.awaited_none (hfound : found = Option.none) : awaited format channels false streamTs reader = 0 := by
  induction h with
  | none _ hnil => subst hnil; rfl
  | noData _ => rfl
  | found _ _ => cases hfound
  | dropped _ hlate _ ih => rw [awaited, if_pos hlate, ih hfound]

end

theorem skipped_lt_of_gap (hlate : ¬ Late format channels streamTs packet) (hgap : gapBefore false streamTs packet = 0)
    (hle : skipped false streamTs packet ≤ ticksOf format channels packet) :
    skipped false streamTs packet < ticksOf format channels packet := by
  have htotal : ticksOf format channels packet < 2 ^ 32 := PcmDecoder.total_lt _ _ _
  rw [Late, Bool.not_eq_false, streamTimestampLt_iff] at hlate
  rw [gapBefore] at hgap
  rw [skipped] at hle ⊢
  by_cases hlt : streamTimestampLt packet.streamTimestamp streamTs = true
  · simp only [hlt, and_self, if_true] at hle ⊢
    rw [streamTimestampLt_iff] at hlt
    bv_omega
  · simp only [hlt, and_false, if_false, Bool.false_eq_true, or_self] at hgap hle ⊢
    bv_omega

end

section
variable {clock : Clock} {s : Int} {size : Nat} {d d' : Depacketizer σ} {info info' : FrameInfo}
  {out : List (Tick σ)} {packet : PcmPacket} {k gap : Nat}

theorem Waiting.ahead (h : d.Waiting) : d.ahead = awaited d.format d.channels d.firstPacket d.streamTs d.reader := by
  rw [Depacketizer.ahead, h.inHand]

theorem Playing.ahead_of_pos (h : d.Playing packet k gap)
    (hpos : 0 < gap ∨ k < ticksOf d.format d.channels packet) : d.ahead = gap := by
  have hlt := h.gap_lt
  have hahead := h.ahead
  have havail := h.reading.avail
  rw [← h.reading.streamPos] at hahead
  rw [← ticksOf] at havail
  rw [Depacketizer.ahead, h.inHand]
  simp only
  rw [if_neg]
  · bv_omega
  · rintro ⟨hts, hzero⟩
    rw [hzero, show (0 : StreamTimestamp).toNat = 0 from rfl] at havail
    obtain hpos | hpos := hpos
    · bv_omega
    · omega

theorem Playing.ahead_of_end (h : d.Playing packet k 0) (hend : k = ticksOf d.format d.channels packet) :
    d.ahead = awaited d.format d.channels d.firstPacket d.streamTs d.reader := by
  have hahead := h.ahead
  have havail := h.reading.avail
  rw [← h.reading.streamPos] at hahead
  rw [← ticksOf, ← hend, Nat.sub_self] at havail
  rw [Depacketizer.ahead, h.inHand]
  simp only
  rw [if_pos]
  exact ⟨by simpa using hahead, by simpa using BitVec.eq_of_toNat_eq (y := 0#32) (by simpa using havail)⟩

theorem stampInfo_of_ne (hinfo : info.captureTs ≠ 0) : d.stampInfo info = info := by
  simp [stampInfo, hinfo]

theorem stampInfo_of_zero (hinfo : info.captureTs = 0) (hvalid : d.validCaptureTs = true) :
    (d.stampInfo info).captureTs = d.nextCaptureTs - d.sampleSpec.samplesPerChanToNs info.numFilledSamples := by
  simp [stampInfo, hinfo, hvalid]

theorem Step.captureTs_keep (h : Step size d info out d' info') (hinfo : info.captureTs ≠ 0) :
    info'.captureTs = info.captureTs := by
  cases h with
  | fetch _ _ _ _ _ => rfl
  | gap _ _ _ _ => rw [stampInfo_of_ne (by exact hinfo)]
  | play _ _ _ _ _ | finish _ _ _ _ =>
    simp only [playedInfo]
    split
    · rw [stampInfo_of_ne (by exact hinfo)]
    · rfl
  | rest _ _ _ _ _ _ => simp only; rw [stampInfo_of_ne (by exact hinfo)]

theorem Steps.captureTs_keep (h : Steps size d info out d' info') (hinfo : info.captureTs ≠ 0) :
    info'.captureTs = info.captureTs := by
  induction h with
  | refl => rfl
  | cons hstep _ ih =>
    have hkeep := hstep.captureTs_keep hinfo
    rw [ih (by rwa [hkeep]), hkeep]

theorem playedInfo_captureTs (hf : Follows clock d s) (hplaying : d.Playing packet k 0)
    (hzero : info.captureTs = 0) (hempty : info.numFilledSamples = 0) {m : Nat} (hm : m ≠ 0) :
    (d.playedInfo info m).captureTs = clock.time s := by
  have hns := hf.exact 0
  rw [Nat.cast_zero, mul_zero] at hns
  have hnext := hf.playing hplaying
  rw [Nat.cast_zero, add_zero] at hnext
  simp only [playedInfo, if_pos hm]
  rw [stampInfo_of_zero (by exact hzero) hf.valid, hnext]
  simp only [hempty, hns, sub_zero]

theorem Step.captureTs_first (h : Step size d info out d' info') (hf : Follows clock d s)
    (hzero : info.captureTs = 0) (hempty : info.numFilledSamples = 0) :
    info'.captureTs = clock.time (s + (d.ahead - size : Nat)) ∨
      (info'.captureTs = 0 ∧ out = [] ∧ d'.ahead = d.ahead) := by
  have hns := hf.exact 0
  rw [Nat.cast_zero, mul_zero] at hns
  cases h with
  | fetch dropped hwait hroom hfetched hplaying =>
    rename_i packet left dec decoder
    refine .inr ⟨hzero, rfl, ?_⟩
    rw [hf.firstPacket] at hfetched hplaying
    rw [hwait.ahead, hf.firstPacket, hfetched.awaited_found rfl]
    refine hplaying.ahead_of_pos ?_
    by_cases hgap : gapBefore false d.streamTs packet = 0
    · exact .inr (skipped_lt_of_gap ((hfetched.begun rfl).2.resolve_left (by simp)) hgap hplaying.reading.le)
    · exact .inl (Nat.pos_of_ne_zero hgap)
  | gap hplaying hroom hgap hn =>
    rename_i packet k gap n
    left
    rw [stampInfo_of_zero (by exact hzero) hf.valid, hf.playing hplaying, hplaying.ahead_of_pos (.inl hgap)]
    simp only [hf.exact _, hempty, Nat.zero_add]
    rw [hempty, Nat.sub_zero] at hn
    rw [show (s + gap : Int) = s + (gap - size : Nat) + n by omega, clock.time_add]
    omega
  | play hplaying hroom hm hle hdec =>
    left
    rw [hplaying.ahead_of_pos (.inr (by omega)), Nat.zero_sub, Nat.cast_zero, add_zero]
    exact playedInfo_captureTs hf hplaying hzero hempty (by omega)
  | finish hplaying hroom hm hdec =>
    rename_i packet k m decoder
    by_cases hm0 : m = 0
    · subst hm0
      refine .inr ⟨by simpa [playedInfo] using hzero, rfl, ?_⟩
      rw [hplaying.ahead_of_end (by omega), (Waiting.played hdec 0).ahead, played, advanceCapture_eq]
      simp [channels]
    · left
      rw [hplaying.ahead_of_pos (.inr (by omega)), Nat.zero_sub, Nat.cast_zero, add_zero]
      exact playedInfo_captureTs hf hplaying hzero hempty hm0
  | rest dropped hwait hroom hfetched hdec hn =>
    left
    rw [hf.firstPacket] at hfetched
    rw [hwait.ahead, hf.firstPacket, hfetched.awaited_none rfl, Nat.zero_sub, Nat.cast_zero, add_zero]
    simp only
    rw [stampInfo_of_zero (by exact hzero) hf.valid, hf.waiting hwait]
    simp only [hempty, hns, sub_zero]

section
variable (h : Steps size d info out d' info') (hf : Follows clock d s) (hnear : NearFrom clock size d info s)
include h hf hnear

/-- The capture time of a frame that begins at `s`, when the frame is full. -/
theorem Steps.captureTs_eq (hzero : info.captureTs = 0) (hempty : info.numFilledSamples = 0)
    (hsize : 0 < size) (hfull : info'.numFilledSamples = size) :
    info'.captureTs = clock.time (s + (d.ahead - size : Nat)) := by
  induction h with
  | refl => omega
  | cons hstep hsteps ih =>
    obtain hstamp | ⟨hzero1, rfl, hahead⟩ := hstep.captureTs_first hf hzero hempty
    · rw [← hstamp]
      exact hsteps.captureTs_keep (by rw [hstamp]; exact (hf.later _).ne')
    · have hf1 := hstep.follows hf (by simpa using hnear [] _ _ .refl hf.firstPacket)
      rw [length_nil, Nat.cast_zero, add_zero] at hf1
      rw [← hahead]
      refine ih hf1 (fun out' d2 info2 hsteps2 hfirst => ?_) hzero1 ?_ hfull
      · simpa using hnear _ d2 info2 (.cons hstep hsteps2) hfirst
      · have := (hstep.filled (by omega)).1
        simpa [hempty] using this

theorem Steps.follows : Follows clock d' (s + out.length) := by
  induction h generalizing s with
  | refl => simpa using hf
  | cons hstep hsteps ih =>
    have hf1 := hstep.follows hf (by simpa using hnear [] _ _ .refl hf.firstPacket)
    have hmore := ih hf1 fun out' d2 info2 hsteps2 hfirst => by
      have := hnear _ d2 info2 (.cons hstep hsteps2) hfirst
      rwa [length_append, Nat.cast_add, ← add_assoc] at this
    rwa [length_append, Nat.cast_add, ← add_assoc]

end
end

/-! ## Runs -/

def begins (clock : Clock) (d : Depacketizer σ) (s : Int) : Int :=
  match d.firstPacket, d.reader with
  | true, some packet :: _ => clock.position packet
  | _, _ => s

structure Timed (clock : Clock) (d : Depacketizer σ) (s : Int) : Prop where
  inv : d.Inv
  exact : clock.Exact d.sampleSpec
  stamped : ∀ packet, some packet ∈ d.reader → clock.Stamped packet
  before : d.firstPacket = true → d.Waiting
  after : d.firstPacket = false → Follows clock d s

variable {size : Nat} {d d' : Depacketizer σ} {info' : FrameInfo} {out : List (Tick σ)}
  {entry : Option PcmPacket}

variable {info : FrameInfo}

theorem Step.mem_reader (h : Step size d info out d' info') (hmem : entry ∈ d'.reader) : entry ∈ d.reader := by
  cases h with
  | fetch _ _ _ hfetched _ => exact hfetched.mem_left hmem
  | gap _ _ _ _ => rw [readMissingSamples_eq] at hmem; exact hmem
  | play _ _ _ _ _ | finish _ _ _ _ => rw [played, advanceCapture_eq] at hmem; exact hmem
  | rest _ _ _ hfetched _ _ =>
    rw [readMissingSamples_eq, advanceCapture_eq] at hmem
    exact hfetched.mem_left hmem

theorem Steps.mem_reader (h : Steps size d info out d' info') (hmem : entry ∈ d'.reader) : entry ∈ d.reader := by
  induction h with
  | refl => exact hmem
  | cons hstep _ ih => exact hstep.mem_reader (ih hmem)

theorem Inv.waiting_of_first (h : d.Inv) (hfirst : d.firstPacket = true) : d.Waiting := by
  obtain hwait | ⟨_, _, _, hplaying⟩ := h
  · exact hwait
  · rw [hplaying.firstPacket] at hfirst; cases hfirst

section
variable {clock : Clock} {s : Int} {size : Nat} {d d' : Depacketizer σ} {info : FrameInfo}
  {out : List (Tick σ)}

theorem Steps.captureTs_of_first (h : Steps size d {} out d' info) (htimed : Timed clock d s)
    (hfirst : d.firstPacket = true) (hnear : NearFrom clock size d {} (d.begins clock s)) (hsize : 0 < size)
    (hfull : info.numFilledSamples = size) (hobtained : d'.firstPacket = false) :
    info.captureTs = clock.time (d.begins clock s + (d.ahead - size : Nat)) ∧
      Follows clock d' (d.begins clock s + out.length) ∧ 0 < clock.time (d.begins clock s) := by
  have hwait := htimed.before hfirst
  cases h with
  | refl => rw [hfirst] at hobtained; cases hobtained
  | cons hstep hsteps =>
    cases hstep with
    | fetch dropped hwait' hroom hfetched hplaying =>
      rename_i packet left dec decoder
      have hstep := Step.fetch dropped hwait hroom hfetched hplaying
      rw [hfirst] at hfetched
      have hreader := hfetched.first
      have hstamped := htimed.stamped packet (by rw [hreader]; exact mem_cons_self)
      have hbegins : d.begins clock s = clock.position packet := by simp [begins, hfirst, hreader]
      have hskip : skipped d.firstPacket d.streamTs packet = 0 := by simp [skipped, hfirst]
      have hgap : gapBefore d.firstPacket d.streamTs packet = 0 := by simp [gapBefore, hfirst]
      rw [hskip, hgap] at hplaying
      have hf : Follows clock (started { d with reader := left } packet decoder) (d.begins clock s) := by
        rw [hbegins]
        refine started_follows htimed.exact (fun p hp => htimed.stamped p (by rw [hreader]; simp [hp]))
          hstamped ?_ ?_ hskip (by simp) hplaying
        · rw [← hstamped.captureTimestamp]; exact hstamped.pos
        · simpa [hfirst] using hstamped.stands
      have hnear' : NearFrom clock size (started { d with reader := left } packet decoder)
          { ({} : FrameInfo) with numDroppedPackets := ({} : FrameInfo).numDroppedPackets + dropped }
          (d.begins clock s) := fun out' d2 info2 hsteps2 h2 => by
        simpa using hnear _ d2 info2 (.cons hstep hsteps2) h2
      have hahead : (started { d with reader := left } packet decoder).ahead = d.ahead := by
        have hawaited := hwait.ahead
        rw [hfirst, hreader, awaited] at hawaited
        by_cases hticks : ticksOf d.format d.channels packet = 0
        · rw [hawaited, if_pos hticks, hplaying.ahead_of_end hticks.symm]
          simp [started, hfirst, channels]
        · rw [hawaited, if_neg hticks, hplaying.ahead_of_pos (.inr (Nat.pos_of_ne_zero hticks))]
      rw [← hahead]
      exact ⟨hsteps.captureTs_eq hf hnear' rfl rfl hsize hfull, by simpa using hsteps.follows hf hnear', hf.pos⟩
    | gap hplaying _ _ _ | play hplaying _ _ _ _ => exact absurd hplaying hwait.not_playing
    | finish hplaying _ _ _ => exact absurd hplaying hwait.not_playing
    | rest _ _ _ _ _ hn =>
      obtain ⟨-, rfl⟩ := hsteps.full (by simp; omega)
      simp [readMissingSamples_eq, advanceCapture_eq, hfirst] at hobtained

theorem Timed.frame (h : Timed clock d s) (hnear : NearFrom clock size d {} (d.begins clock s))
    (hsize : 0 < size) {frame : Frame (Tick σ)} (hread : d.readFrame size = .ok (frame, d')) :
    Timed clock d' (d.begins clock s + size) ∧ (d'.firstPacket = false →
      frame.captureTimestamp = some (clock.time (d.begins clock s + (d.ahead - size : Nat)))) := by
  obtain ⟨out, d1, info, hread', hsteps, rfl⟩ := readFrame_steps h.inv (safeFrame_of_ok h.inv hread)
  rw [hread] at hread'
  cases hread'
  have hfull : info.numFilledSamples = out.length := by
    have := (hsteps.filled (Nat.zero_le _)).1
    simpa using this
  have hinv := hsteps.inv h.inv
  have hframe : d'.firstPacket = false → info.captureTs = clock.time (d.begins clock s + (d.ahead - out.length : Nat)) ∧
        Follows clock d' (d.begins clock s + out.length) ∧ 0 < clock.time (d.begins clock s) := by
    intro hobtained
    cases hfirst : d.firstPacket with
    | true => exact hsteps.captureTs_of_first h hfirst hnear hsize hfull hobtained
    | false =>
      have hf := h.after hfirst
      have hbegins : d.begins clock s = s := by simp [begins, hfirst]
      rw [hbegins] at hnear ⊢
      exact ⟨hsteps.captureTs_eq hf hnear rfl rfl hsize hfull, hsteps.follows hf hnear, hf.pos⟩
  refine ⟨⟨hinv, ?_, fun p hp => h.stamped p (hsteps.mem_reader hp), hinv.waiting_of_first,
    fun hobtained => (hframe hobtained).2.1⟩, fun hobtained => ?_⟩
  · rw [(hsteps.same (.refl d)).sampleSpec]; exact h.exact
  · obtain ⟨hcts, -, hpos⟩ := hframe hobtained
    have hlater : 0 < clock.time (d.begins clock s + (d.ahead - out.length : Nat)) :=
      lt_of_lt_of_le hpos (clock.time_le (by omega))
    simp only [frameOf, hcts, if_pos hlater]

end

/-- The states between frames, with the position of the next frame unless the first packet sets it. All frames
have ticks, and all packets that are looked at are near. -/
inductive Run (clock : Clock) (start : Depacketizer σ) : Depacketizer σ → Int → Prop
  | start : Run clock start start 0
  | frame {d d' : Depacketizer σ} {s : Int} {size : Nat} {frame : Frame (Tick σ)} (hrun : Run clock start d s)
      (hsize : 0 < size) (hnear : NearFrom clock size d {} (d.begins clock s))
      (hread : d.readFrame size = .ok (frame, d')) : Run clock start d' (d.begins clock s + size)

section
variable {clock : Clock} {start d d' : Depacketizer σ} {s : Int} {size : Nat}

theorem Run.timed (h : Run clock start d s) (hstart : Timed clock start 0) : Timed clock d s := by
  induction h with
  | start => exact hstart
  | frame _ hsize hnear hread ih => exact (ih.frame hnear hsize hread).1

end

/-- Each frame after the first packet was obtained has the capture time of its first tick, exactly if the packet
that is awaited when the frame begins does not begin after the frame's end. -/
theorem captureTimestamp_iff_ahead (clock : Clock) (format : PcmFormat σ) (filler : Filler σ)
    (sampleSpec : SampleSpec) (beep : Bool) (reader : List (Option PcmPacket))
    (hexact : clock.Exact sampleSpec) (hstamped : ∀ packet, some packet ∈ reader → clock.Stamped packet)
    {d d' : Depacketizer σ} {s : Int} {size : Nat} {frame : Frame (Tick σ)}
    (hrun : Run clock (init format filler sampleSpec beep reader) d s) (hsize : 0 < size)
    (hnear : NearFrom clock size d {} (d.begins clock s)) (hread : d.readFrame size = .ok (frame, d'))
    (hobtained : d'.firstPacket = false) :
    frame.captureTimestamp = some (clock.time (d.begins clock s)) ↔ d.ahead ≤ size := by
  have hstart : Timed clock (init format filler sampleSpec beep reader) 0 :=
    ⟨init_inv .., hexact, hstamped, fun _ => init_waiting .., fun hfirst => by cases hfirst⟩
  rw [((hrun.timed hstart).frame hnear hsize hread).2 hobtained, Option.some_inj, clock.time_add]
  have hrate := clock.rate_pos
  constructor
  · intro heq
    have hzero : clock.rate * ((d.ahead - size : Nat) : Int) = 0 := by omega
    have := (mul_eq_zero.mp hzero).resolve_left hrate.ne'
    omega
  · intro hle
    rw [Nat.sub_eq_zero_of_le hle]
    simp

def gapReader : List (Option PcmPacket) :=
  [some { streamTimestamp := 0, duration := 1, captureTimestamp := 100, payload := [7] },
   some { streamTimestamp := 10, duration := 1, captureTimestamp := 110, payload := [8] }]

/-- The clock of `gapReader`; `monoSpec` has a tick each nanosecond. -/
def gapClock : Clock where
  zero := 100
  rate := 1
  rate_pos := by decide
  position packet := packet.streamTimestamp.toNat

theorem gapReader_stamped (packet : PcmPacket) (h : some packet ∈ gapReader) : gapClock.Stamped packet := by
  simp only [gapReader, mem_cons, Option.some.injEq, not_mem_nil, or_false] at h
  obtain rfl | rfl := h
  · exact ⟨by decide, by decide, by decide⟩
  · exact ⟨by decide, by decide, by decide⟩

theorem nearFrom_of_close {clock : Clock} {s : Int} (hclose : ∀ packet, some packet ∈ d.reader →
      s + size - 2 ^ 31 < clock.position packet ∧ clock.position packet < s + 2 ^ 31) : NearFrom clock size d {} s := by
  intro out d' info' hsteps _
  have hlength : out.length ≤ size := by
    have := hsteps.filled (Nat.zero_le size)
    simp only [Nat.zero_add] at this
    omega
  have hmem : ∀ packet, some packet ∈ d'.reader → some packet ∈ d.reader := fun _ => hsteps.mem_reader
  generalize d'.reader = reader at hmem
  induction reader with
  | nil => trivial
  | cons entry rest ih =>
    cases entry with
    | none => trivial
    | some packet =>
      have := hclose packet (hmem packet mem_cons_self)
      exact ⟨by omega, by omega, fun _ => ih fun p hp => hmem p (mem_cons_of_mem _ hp)⟩

/-- The first frame of `gapReader`. -/
theorem captureTimestamp_gapReader : ∃ frame d',
    (init pcm8 sawtooth monoSpec false gapReader).readFrame 1 = .ok (frame, d') ∧
      (frame.captureTimestamp = some 100 ↔ (init pcm8 sawtooth monoSpec false gapReader).ahead ≤ 1) :=
  ⟨_, _, rfl, captureTimestamp_iff_ahead gapClock pcm8 sawtooth monoSpec false gapReader
    (fun n => (one_mul (n : Int)).symm) gapReader_stamped .start (by decide)
    (nearFrom_of_close fun packet h => by
      simp only [init, gapReader, List.mem_cons, Option.some.injEq, List.not_mem_nil, or_false] at h
      obtain rfl | rfl := h
      · decide
      · decide)
    rfl rfl⟩

/-- A frame of two ticks that begins at 1, in the middle of the gap, gets the capture time of position 8. -/
theorem gapReader_captureTimestamps :
    (readFrames [1, 2, 7] (init pcm8 sawtooth monoSpec false gapReader)).map
        (fun result => result.1.map Frame.captureTimestamp) = .ok [some 100, some 108, some 103] ∧
      gapClock.time 0 = 100 ∧ gapClock.time 1 = 101 ∧ gapClock.time 3 = 103 :=
  ⟨rfl, by decide, by decide, by decide⟩

end Depacketizer
end Roc.Audio
