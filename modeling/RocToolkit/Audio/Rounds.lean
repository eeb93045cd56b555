import RocToolkit.Audio.Positions

/-!
# RocToolkit.Audio.Rounds

What the PCM depacketizer does while it fills a frame, as steps: take a packet from the reader, fill the gap
before it, play it, or fill the rest of the frame when there is no packet. `Step` says everything a step can
do; `readFrame` is a sequence of them (`readFrame_steps`), unless it stops with a panic, and it does so only
at a packet that is half the range away (`SafeFrame`).
-/

namespace Roc.Audio.Depacketizer

open PcmDecoder

variable {σ : Type}

/-- The state after `m` ticks of the packet in hand. -/
def played (d : Depacketizer σ) (packet : Option PcmPacket) (decoder : PcmDecoder) (m : Nat) : Depacketizer σ :=
  advanceCapture
    { d with
      packet := packet
      decoder := decoder
      streamTs := d.streamTs + BitVec.ofNat 32 m
      packetSamples := d.packetSamples + BitVec.ofNat 32 m } m

/-- What `read_samples_` notes about the frame after `m` ticks of the packet in hand. -/
def playedInfo (d : Depacketizer σ) (info : FrameInfo) (m : Nat) : FrameInfo :=
  let decoded := { info with numDecodedSamples := info.numDecodedSamples + m }
  let stamped := if m ≠ 0 then d.stampInfo decoded else decoded
  { stamped with numFilledSamples := stamped.numFilledSamples + m }

/-- One step of filling a frame of `size` ticks, with the ticks it writes. -/
inductive Step (size : Nat) :
    Depacketizer σ → FrameInfo → List (Tick σ) → Depacketizer σ → FrameInfo → Prop
  | fetch {d : Depacketizer σ} {info : FrameInfo} {packet : PcmPacket} {left : List (Option PcmPacket)}
      {dec decoder : PcmDecoder} (dropped : Nat) (hwait : d.Waiting) (hroom : info.numFilledSamples < size)
      (hfetched : Fetched d.format d.channels d.firstPacket d.streamTs d.reader (some packet) left dec)
      (hplaying : (started { d with reader := left } packet decoder).Playing packet
        (skipped d.firstPacket d.streamTs packet) (gapBefore d.firstPacket d.streamTs packet)) :
      Step size d info [] (started { d with reader := left } packet decoder)
        { info with numDroppedPackets := info.numDroppedPackets + dropped }
  | gap {d : Depacketizer σ} {info : FrameInfo} {packet : PcmPacket} {k gap n : Nat}
      (hplaying : d.Playing packet k gap) (hroom : info.numFilledSamples < size) (hgap : 0 < gap)
      (hn : n = min gap (size - info.numFilledSamples)) :
      Step size d info (d.filling n) (d.readMissingSamples n).2
        (d.stampInfo { info with numFilledSamples := info.numFilledSamples + n })
  | play {d : Depacketizer σ} {info : FrameInfo} {packet : PcmPacket} {k m : Nat} {decoder : PcmDecoder}
      (hplaying : d.Playing packet k 0) (hroom : info.numFilledSamples < size)
      (hm : m = size - info.numFilledSamples) (hle : k + m ≤ ticksOf d.format d.channels packet)
      (hdec : decoder.Reading d.format d.channels packet.streamTimestamp packet.payload (k + m)) :
      Step size d info (d.ticksFrom packet k m) (d.played (some packet) decoder m) (d.playedInfo info m)
  | finish {d : Depacketizer σ} {info : FrameInfo} {packet : PcmPacket} {k m : Nat} {decoder : PcmDecoder}
      (hplaying : d.Playing packet k 0) (hroom : info.numFilledSamples + m < size)
      (hm : k + m = ticksOf d.format d.channels packet) (hdec : decoder.Idle) :
      Step size d info (d.ticksFrom packet k m) (d.played none decoder m) (d.playedInfo info m)
  | rest {d : Depacketizer σ} {info : FrameInfo} {left : List (Option PcmPacket)} {dec : PcmDecoder}
      {n : Nat} (dropped : Nat) (hwait : d.Waiting) (hroom : info.numFilledSamples < size)
      (hfetched : Fetched d.format d.channels d.firstPacket d.streamTs d.reader none left dec)
      (hdec : dec.Idle) (hn : n = size - info.numFilledSamples) :
      Step size d info (d.filling n)
        (({ d with reader := left, decoder := dec }.advanceCapture n).readMissingSamples n).2
        { d.stampInfo { info with numDroppedPackets := info.numDroppedPackets + dropped } with
          numFilledSamples := info.numFilledSamples + n }

inductive Steps (size : Nat) :
    Depacketizer σ → FrameInfo → List (Tick σ) → Depacketizer σ → FrameInfo → Prop
  | refl {d : Depacketizer σ} {info : FrameInfo} : Steps size d info [] d info
  | cons {d d₁ d' : Depacketizer σ} {info info₁ info' : FrameInfo} {out more : List (Tick σ)}
      (hstep : Step size d info out d₁ info₁) (hsteps : Steps size d₁ info₁ more d' info') :
      Steps size d info (out ++ more) d' info'

theorem Steps.trans {size : Nat} {d d1 d' : Depacketizer σ} {info info1 info' : FrameInfo}
    {out more : List (Tick σ)} (h1 : Steps size d info out d1 info1) (h2 : Steps size d1 info1 more d' info') :
    Steps size d info (out ++ more) d' info' := by
  induction h1 with
  | refl => exact h2
  | cons hstep _ ih => rw [List.append_assoc]; exact .cons hstep (ih h2)

section
variable {d : Depacketizer σ} {info : FrameInfo} {packet : PcmPacket} {k gap : Nat}

@[simp] theorem stampInfo_numFilledSamples (d : Depacketizer σ) (info : FrameInfo) :
    (d.stampInfo info).numFilledSamples = info.numFilledSamples := by
  rw [stampInfo]
  split
  · rfl
  · rfl

@[simp] theorem playedInfo_numFilledSamples (d : Depacketizer σ) (info : FrameInfo) (m : Nat) :
    (d.playedInfo info m).numFilledSamples = info.numFilledSamples + m := by
  rw [playedInfo]
  split
  · simp
  · rfl

@[simp] theorem length_filling (d : Depacketizer σ) (n : Nat) : (d.filling n).length = n := by simp [filling]

@[simp] theorem length_ticksFrom (d : Depacketizer σ) (packet : PcmPacket) (k m : Nat) :
    (d.ticksFrom packet k m).length = m := by simp [ticksFrom]

/-! ## The parts of a round -/

theorem fillGap_of_zero (h : d.Playing packet k 0) (left : Nat) : d.fillGap info left = .ok ([], d, info) := by
  have hpos : d.streamTs = d.decoder.streamPos := by
    rw [h.reading.streamPos, h.ahead]; simp
  simp [fillGap, hpos]

theorem fillGap_of_pos (h : d.Playing packet k gap) (hgap : 0 < gap) (left : Nat) :
    d.fillGap info left = .ok (d.filling (min gap left), (d.readMissingSamples (min gap left)).2,
      d.stampInfo { info with numFilledSamples := info.numFilledSamples + min gap left }) := by
  have hlt := h.gap_lt
  have hahead := h.ahead
  rw [← h.reading.streamPos] at hahead
  have hne : d.streamTs ≠ d.decoder.streamPos := by bv_omega
  have hdist : (d.decoder.streamPos - d.streamTs).toNat = gap := by bv_omega
  have hbefore : streamTimestampLt d.streamTs d.decoder.streamPos = true := by
    rw [streamTimestampLt_iff]; bv_omega
  have hdiff : streamTimestampDiff d.decoder.streamPos d.streamTs = gap := by
    rw [streamTimestampDiff_of_lt (by omega), hdist]
  simp only [fillGap, if_neg hne, hbefore, Bool.not_true, Bool.false_eq_true, if_false, hdiff,
    Int.toNat_natCast, readMissingSamples_eq, pure_eq_ok]
  rfl

theorem Playing.gapFilled (h : d.Playing packet k gap) {n : Nat} (hn : n ≤ gap) :
    (d.readMissingSamples n).2.Playing packet k (gap - n) := by
  have hlt := h.gap_lt
  have hahead := h.ahead
  rw [readMissingSamples_eq]
  exact ⟨h.inHand, h.firstPacket, h.reading, by omega, by simp only; bv_omega⟩

variable {decoder : PcmDecoder}

theorem Playing.played (h : d.Playing packet k 0) {m : Nat}
    (hdec : decoder.Reading d.format d.channels packet.streamTimestamp packet.payload (k + m)) :
    (d.played (some packet) decoder m).Playing packet (k + m) 0 := by
  have hahead := h.ahead
  rw [Depacketizer.played, advanceCapture_eq]
  refine ⟨rfl, h.firstPacket, hdec, by decide, ?_⟩
  simp only [BitVec.ofNat_add]
  bv_omega

theorem Waiting.played (hdec : decoder.Idle) (m : Nat) : (d.played none decoder m).Waiting := by
  rw [Depacketizer.played, advanceCapture_eq]
  exact ⟨rfl, hdec⟩

theorem playPacket_spec (info : FrameInfo) (h : d.Playing packet k 0) {left : Nat} (hleft : 0 < left) :
    ∃ m d', d.playPacket info left = .ok (d.ticksFrom packet k m, d', d.playedInfo info m) ∧
      ((m = left ∧ k + m ≤ ticksOf d.format d.channels packet ∧ ∃ decoder : PcmDecoder,
          d' = d.played (some packet) decoder m ∧
          decoder.Reading d.format d.channels packet.streamTimestamp packet.payload (k + m)) ∨
        (m < left ∧ k + m = ticksOf d.format d.channels packet ∧ ∃ decoder : PcmDecoder,
          d' = d.played none decoder m ∧ decoder.Idle)) := by
  have hle := h.reading.le
  obtain ⟨decoder, hread, hreading⟩ := read_spec (show 0 < d.channels from d.sampleSpec.numChannels_pos) h.reading left
  obtain ⟨m, hm⟩ : ∃ m, m = min left (ticksOf d.format d.channels packet - k) := ⟨_, rfl⟩
  rw [← ticksOf] at hle
  rw [← ticksOf, ← hm] at hread hreading
  have hread' : d.decoder.read d.format d.channels left = .ok (d.ticksFrom packet k m, decoder) := hread
  by_cases hend : m < left
  · obtain ⟨decoder', hfinish, hidle⟩ := finish_spec hreading
    refine ⟨m, d.played none decoder' m, ?_, .inr ⟨hend, by omega, decoder', rfl, hidle⟩⟩
    simp only [playPacket, hleft.ne', if_false, readPacketSamples, hread', ok_bind, length_ticksFrom, hend,
      if_true, hfinish, pure_eq_ok]
    rfl
  · refine ⟨m, d.played (some packet) decoder m, ?_, .inl ⟨by omega, by omega, decoder, rfl, hreading⟩⟩
    simp only [playPacket, hleft.ne', if_false, readPacketSamples, hread', ok_bind, length_ticksFrom, hend, pure_eq_ok]
    rw [Depacketizer.played, ← h.inHand]
    rfl

end

/-! ## What every step keeps -/

def credit (size : Nat) (d : Depacketizer σ) (info : FrameInfo) : Nat :=
  size - info.numFilledSamples + 2 * d.reader.length + if d.packet.isSome then 1 else 0

theorem Fetched.length_lt {format : PcmFormat σ} {channels : Nat} {firstPacket : Bool}
    {streamTs : StreamTimestamp} {reader left : List (Option PcmPacket)} {found : Option PcmPacket}
    {dec : PcmDecoder} (h : Fetched format channels firstPacket streamTs reader found left dec) :
    left.length + (if found.isSome then 1 else 0) ≤ reader.length := by
  induction h with
  | none _ _ => simp
  | noData _ => simp
  | found _ _ => simp
  | dropped _ _ _ ih => rw [List.length_cons]; omega

section
variable {size : Nat} {d d' : Depacketizer σ} {info info' : FrameInfo} {out : List (Tick σ)}

section
variable (h : Step size d info out d' info')
include h

theorem Step.inv : d'.Inv := by
  cases h with
  | fetch _ _ _ _ hplaying => exact .inr ⟨_, _, _, hplaying⟩
  | gap hplaying _ _ hn => exact .inr ⟨_, _, _, hplaying.gapFilled (by omega)⟩
  | play hplaying _ _ _ hdec => exact .inr ⟨_, _, _, hplaying.played hdec⟩
  | finish _ _ _ hdec => exact .inl (Waiting.played hdec _)
  | rest _ hwait _ _ hdec _ =>
    rw [readMissingSamples_eq, advanceCapture_eq]
    exact .inl ⟨hwait.inHand, hdec⟩

theorem Step.filled (hroom : info.numFilledSamples ≤ size) :
    info'.numFilledSamples = info.numFilledSamples + out.length ∧ info'.numFilledSamples ≤ size := by
  cases h with
  | fetch _ _ _ _ _ => exact ⟨rfl, hroom⟩
  | gap _ _ _ hn => simp; omega
  | play _ _ hm _ _ => simp; omega
  | finish _ _ _ _ => simp; omega
  | rest _ _ _ _ _ hn => simp; omega

theorem Step.credit_lt (hroom : info.numFilledSamples ≤ size) : credit size d' info' < credit size d info := by
  obtain ⟨hfilled, hle⟩ := h.filled hroom
  rw [credit, credit, hfilled]
  cases h with
  | fetch _ hwait _ hfetched _ =>
    have := hfetched.length_lt
    simp [started, hwait.inHand] at this ⊢
    omega
  | gap _ _ _ _ => rw [readMissingSamples_eq]; simp; omega
  | play hplaying _ _ _ _ | finish hplaying _ _ _ => simp [played, advanceCapture_eq, hplaying.inHand]; omega
  | rest _ hwait _ hfetched _ _ =>
    have := hfetched.length_lt
    simp [readMissingSamples_eq, advanceCapture_eq, hwait.inHand] at this ⊢
    omega

end

theorem Steps.inv (h : Steps size d info out d' info') (hinv : d.Inv) : d'.Inv := by
  induction h with
  | refl => exact hinv
  | cons hstep _ ih => exact ih hstep.inv

theorem Steps.filled (h : Steps size d info out d' info') (hroom : info.numFilledSamples ≤ size) :
    info'.numFilledSamples = info.numFilledSamples + out.length ∧ info'.numFilledSamples ≤ size := by
  induction h with
  | refl => exact ⟨rfl, hroom⟩
  | cons hstep _ ih =>
    obtain ⟨hfilled, hle⟩ := hstep.filled hroom
    obtain ⟨hmore, hend⟩ := ih hle
    rw [List.length_append]
    omega

end

/-! ## A round -/

section
variable {size : Nat} {d : Depacketizer σ} {info : FrameInfo} {packet : PcmPacket} {k gap : Nat}

theorem playPacket_step (h : d.Playing packet k 0) (hroom : info.numFilledSamples < size) :
    ∃ out d' info', d.playPacket info (size - info.numFilledSamples) = .ok (out, d', info') ∧
      Step size d info out d' info' := by
  obtain ⟨m, d', hplay, ⟨hm, hle, decoder, rfl, hdec⟩ | ⟨hm, hend, decoder, rfl, hdec⟩⟩ :=
    playPacket_spec info h (show 0 < size - info.numFilledSamples by omega)
  · exact ⟨_, _, _, hplay, .play h hroom hm hle hdec⟩
  · exact ⟨_, _, _, hplay, .finish h (by omega) hend hdec⟩

theorem readSamples_playing (h : d.Playing packet k gap) (hroom : info.numFilledSamples < size) :
    ∃ out d' info', d.readSamples info (size - info.numFilledSamples) = .ok (out, d', info') ∧
      Steps size d info out d' info' ∧ credit size d' info' < credit size d info := by
  have hsome : d.packet.isSome = true := by rw [h.inHand]; rfl
  simp only [readSamples, updatePacket_in_hand h, ok_bind, hsome, if_true]
  by_cases hgap : 0 < gap
  · have hstep := Step.gap h hroom hgap rfl
    have hfilled := hstep.filled hroom.le
    rw [fillGap_of_pos h hgap]
    by_cases hfull : size - info.numFilledSamples ≤ gap
    · -- the gap takes the rest of the frame
      refine ⟨_, _, _, ?_, .cons hstep .refl, hstep.credit_lt hroom.le⟩
      have hleft : size - info.numFilledSamples - min gap (size - info.numFilledSamples) = 0 := by omega
      simp [playPacket, hleft]
    · have hplaying := h.gapFilled (n := min gap (size - info.numFilledSamples)) (by omega)
      rw [show gap - min gap (size - info.numFilledSamples) = 0 by omega] at hplaying
      obtain ⟨out, d', info', hplay, hstep'⟩ := playPacket_step hplaying (show (d.stampInfo { info with
          numFilledSamples := info.numFilledSamples + min gap (size - info.numFilledSamples) }).numFilledSamples
            < size by simp; omega)
      refine ⟨_, d', info', ?_, .cons hstep (.cons hstep' .refl), (hstep'.credit_lt hfilled.2).trans
        (hstep.credit_lt hroom.le)⟩
      simp only [stampInfo_numFilledSamples] at hplay
      simp only [ok_bind, length_filling, Nat.sub_sub, hplay, pure_eq_ok, List.append_nil]
  · obtain rfl : gap = 0 := by omega
    obtain ⟨out, d', info', hplay, hstep⟩ := playPacket_step h hroom
    refine ⟨out, d', info', ?_, by simpa using Steps.cons hstep .refl, hstep.credit_lt hroom.le⟩
    simp [fillGap_of_zero h, hplay]

theorem readSamples_steps (hinv : d.Inv) (hsafe : d.Safe) (hroom : info.numFilledSamples < size) :
    ∃ out d' info', d.readSamples info (size - info.numFilledSamples) = .ok (out, d', info') ∧
      Steps size d info out d' info' ∧ credit size d' info' < credit size d info := by
  obtain hwait | ⟨packet, k, gap, hplaying⟩ := hinv
  · obtain ⟨found, left, dec, dropped, hfetched, ⟨rfl, hdec, hupdate⟩ | ⟨packet, decoder, rfl, hdec, hupdate⟩⟩ :=
      updatePacket_waiting hwait hsafe info
    · have hstep := Step.rest dropped hwait hroom hfetched hdec rfl
      refine ⟨d.filling _, _, _, ?_, by simpa using Steps.cons hstep .refl, hstep.credit_lt hroom.le⟩
      have hnone : d.packet.isSome = false := by rw [hwait.inHand]; rfl
      simp only [readSamples, hupdate, ok_bind, hnone, Bool.false_eq_true, if_false, pure_eq_ok, fillRest,
        readMissingSamples_eq, advanceCapture_eq, stampInfo_numFilledSamples]
      rfl
    · have hplaying := started_playing (d := { d with reader := left }) hdec
      have hstep := Step.fetch dropped hwait hroom hfetched hplaying
      obtain ⟨out, d', info', hread, hsteps, hcredit⟩ := readSamples_playing hplaying
        (show ({ info with numDroppedPackets := info.numDroppedPackets + dropped } : FrameInfo).numFilledSamples
          < size from hroom)
      refine ⟨out, d', info', ?_, .cons hstep hsteps, hcredit.trans (hstep.credit_lt hroom.le)⟩
      rw [← hread]
      simp only [readSamples, hupdate, updatePacket_in_hand hplaying]
  · exact readSamples_playing hplaying hroom

end

/-! ## Where a round panics -/

section
variable {format : PcmFormat σ} {channels : Nat} {firstPacket : Bool} {streamTs : StreamTimestamp}
  {reader left : List (Option PcmPacket)} {found : Option PcmPacket} {packet : PcmPacket} {dec : PcmDecoder}

theorem HalfAway.not_late (h : HalfAway format channels streamTs packet) : ¬ Late format channels streamTs packet := by
  obtain ⟨haway, hticks⟩ := h
  have htotal : ticksOf format channels packet < 2 ^ 32 := total_lt _ _ _
  rw [Late, Bool.not_eq_false, streamTimestampLt_iff]
  bv_omega

theorem Fetched.halfAway (h : Fetched format channels firstPacket streamTs reader found left dec)
    (hfirst : firstPacket = false) (hreader : ¬ Fetchable format channels streamTs reader) :
    ∃ packet, found = some packet ∧ HalfAway format channels streamTs packet := by
  induction h with
  | none _ hnil => subst hnil; exact absurd trivial hreader
  | noData _ => exact absurd trivial hreader
  | found _ htime =>
    have hlate := htime.resolve_left (by simp [hfirst])
    refine ⟨_, rfl, ?_⟩
    by_contra hhalf
    exact hreader ⟨hhalf, fun h => absurd h hlate⟩
  | dropped _ hlate _ ih =>
    exact ih fun hrest => hreader ⟨fun hhalf => hhalf.not_late hlate, fun _ => hrest⟩

end

section
variable {size : Nat} {d : Depacketizer σ} {info : FrameInfo} {packet : PcmPacket}

theorem skipLate_panics {ts : StreamTimestamp} {data : List UInt8} {n : Nat}
    (hdec : d.decoder.Reading d.format d.channels ts data 0) (hlt : streamTimestampLt ts d.streamTs = true)
    (hdiff : (streamTimestampDiff d.streamTs ts % 2 ^ 64).toNat = n) (hticks : total d.format d.channels data < n) :
    d.skipLate ts = .error (.panic "depacketizer: can't shift packet") := by
  obtain ⟨decoder, hshift, -⟩ := shift_spec hdec n
  have hne : min n (total d.format d.channels data - 0) ≠ n := by omega
  cases hvalid : d.validCaptureTs with
  | false =>
    simp only [skipLate, hlt, Bool.not_true, Bool.false_eq_true, if_false, hdiff, hvalid, hshift, ok_bind, if_pos hne]
    rfl
  | true =>
    have hshift' : shift d.format (channels { d with
          nextCaptureTs := d.nextCaptureTs + d.sampleSpec.samplesPerChanToNs n
          validCaptureTs := true }) d.decoder n = .ok (_, decoder) := hshift
    simp only [skipLate, hlt, Bool.not_true, Bool.false_eq_true, if_false, hdiff, hvalid, if_true, hshift',
      ok_bind, if_pos hne]
    rfl

/-- `payload_decoder_.shift` cannot shift by a difference that is negative before its cast. -/
theorem startPacket_halfAway (hfirst : d.firstPacket = false)
    (hdec : d.decoder.Reading d.format d.channels packet.streamTimestamp packet.payload 0)
    (hhalf : HalfAway d.format d.channels d.streamTs packet) : ∃ e, d.startPacket packet = .error e := by
  have htotal := total_lt d.format d.channels packet.payload
  have hpos : d.decoder.streamPos = packet.streamTimestamp := by rw [hdec.streamPos]; simp
  have haway := hhalf.1
  have hlt : streamTimestampLt packet.streamTimestamp d.streamTs = true := by
    rw [streamTimestampLt_iff]; bv_omega
  have hdiff : (streamTimestampDiff d.streamTs packet.streamTimestamp % 2 ^ 64).toNat = 2 ^ 64 - 2 ^ 31 := by
    rw [streamTimestampDiff_of_ge (by omega), haway]
    decide
  refine ⟨.panic "depacketizer: can't shift packet", ?_⟩
  simp only [startPacket, hpos, hfirst, Bool.false_eq_true, if_false]
  exact skipLate_panics hdec hlt hdiff (htotal.trans (by decide))

theorem readSamples_unsafe (hinv : d.Inv) (hfar : ¬ d.Safe) (info : FrameInfo) (left : Nat) :
    ∃ e, d.readSamples info left = .error e := by
  rw [Safe, Classical.not_imp, Classical.not_imp] at hfar
  obtain ⟨hnone, hfirst, hreader⟩ := hfar
  have hidle : d.decoder.Idle := by
    obtain hwait | ⟨packet, k, gap, hplaying⟩ := hinv
    · exact hwait.idle
    · rw [hplaying.inHand] at hnone; cases hnone
  obtain ⟨found, left', dec, dropped, hloop, hfetched⟩ :=
    fetchLoop_spec d.format d.channels d.firstPacket d.streamTs d.reader hidle
  obtain ⟨packet, rfl, hhalf⟩ := hfetched.halfAway hfirst hreader
  obtain ⟨e, hstart⟩ := startPacket_halfAway (d := { d with reader := left', decoder := dec }) hfirst
    (hfetched.begun rfl).1 hhalf
  have hsome : d.packet.isSome = false := by rw [hnone]; rfl
  refine ⟨e, ?_⟩
  simp only [readSamples, updatePacket, hsome, Bool.false_eq_true, if_false, hloop, ok_bind, hstart, error_bind]

end

/-! ## A frame -/

def SafeLoop (size : Nat) : Nat → Depacketizer σ → FrameInfo → Prop
  | 0, _, _ => True
  | fuel + 1, d, info => info.numFilledSamples < size →
    d.Safe ∧ ∀ out d' info', d.readSamples info (size - info.numFilledSamples) = .ok (out, d', info') →
      SafeLoop size fuel d' info'

/-- The frame has a duration, and the packets that its rounds take can be taken. -/
def SafeFrame (d : Depacketizer σ) (size : Nat) : Prop :=
  size % 4294967296 ≠ 0 ∧ SafeLoop size (d.frameRounds size) d {}

def SafeFrames : List Nat → Depacketizer σ → Prop
  | [], _ => True
  | size :: rest, d => d.SafeFrame size ∧ ∀ frame d', d.readFrame size = .ok (frame, d') → SafeFrames rest d'

section
variable {size : Nat} {d : Depacketizer σ} {info : FrameInfo}

theorem readLoop_steps : ∀ {fuel : Nat} {d : Depacketizer σ} {info : FrameInfo}, d.Inv →
    info.numFilledSamples ≤ size → credit size d info < fuel → SafeLoop size fuel d info →
    ∃ out d' info', readLoop size fuel d info = .ok (out, d', info') ∧ Steps size d info out d' info' ∧
      info'.numFilledSamples = size := by
  intro fuel
  induction fuel with
  | zero => intro d info _ _ hfuel _; exact absurd hfuel (Nat.not_lt_zero _)
  | succ fuel ih =>
    intro d info hinv hroom hfuel hsafe
    by_cases hfull : size ≤ info.numFilledSamples
    · exact ⟨[], d, info, by simp only [readLoop, hfull, if_true, pure_eq_ok], .refl, by omega⟩
    · have hleft : info.numFilledSamples < size := by omega
      obtain ⟨hsafe, hnext⟩ := hsafe hleft
      obtain ⟨out, d1, info1, hread, hsteps, hcredit⟩ := readSamples_steps hinv hsafe hleft
      obtain ⟨more, d', info', hloop, hmore, hend⟩ :=
        ih (hsteps.inv hinv) (hsteps.filled hroom).2 (by omega) (hnext _ _ _ hread)
      refine ⟨out ++ more, d', info', ?_, hsteps.trans hmore, hend⟩
      simp only [readLoop, hfull, if_false, hread, ok_bind, hloop, pure_eq_ok]

theorem readLoop_safe : ∀ {fuel : Nat} {d : Depacketizer σ} {info : FrameInfo}, d.Inv →
    info.numFilledSamples ≤ size → (∃ result, readLoop size fuel d info = .ok result) →
    SafeLoop size fuel d info := by
  intro fuel
  induction fuel with
  | zero => intro d info _ _ _; trivial
  | succ fuel ih =>
    rintro d info hinv hroom ⟨result, hresult⟩ hfull
    simp only [readLoop, show ¬ size ≤ info.numFilledSamples by omega, if_false] at hresult
    have hsafe : d.Safe := by
      by_contra hfar
      obtain ⟨e, herror⟩ := readSamples_unsafe hinv hfar info (size - info.numFilledSamples)
      rw [herror] at hresult
      cases hresult
    refine ⟨hsafe, fun out d1 info1 hread => ?_⟩
    obtain ⟨_, _, _, hread', hsteps, -⟩ := readSamples_steps hinv hsafe hfull
    rw [hread] at hread'
    cases hread'
    rw [hread, ok_bind] at hresult
    obtain ⟨more, hmore, -⟩ := bind_eq_ok.mp hresult
    exact ih (hsteps.inv hinv) (hsteps.filled hroom).2 ⟨more, hmore⟩

theorem readFrame_steps (hinv : d.Inv) (hsafe : d.SafeFrame size) :
    ∃ out d' info, d.readFrame size = .ok (frameOf out info size, d') ∧ Steps size d {} out d' info ∧
      out.length = size := by
  have hcredit : credit size d {} < d.frameRounds size := by
    rw [credit, frameRounds]
    split
    · simp
    · simp
  obtain ⟨out, d', info, hloop, hsteps, hend⟩ := readLoop_steps hinv (Nat.zero_le size) hcredit hsafe.2
  have hprops : setFrameProps out info size = .ok (frameOf out info size) := if_neg hsafe.1
  refine ⟨out, d', info, by simp only [readFrame, hloop, hprops, ok_bind, pure_eq_ok], hsteps, ?_⟩
  have hfilled := (hsteps.filled (Nat.zero_le size)).1
  rw [hend] at hfilled
  simpa using hfilled.symm

theorem safeFrame_of_ok (hinv : d.Inv) {result : Frame (Tick σ) × Depacketizer σ}
    (hread : d.readFrame size = .ok result) : d.SafeFrame size := by
  obtain ⟨loop, hloop, hprops⟩ := bind_eq_ok.mp hread
  refine ⟨fun hzero => ?_, readLoop_safe hinv (Nat.zero_le size) ⟨loop, hloop⟩⟩
  have hrefused : setFrameProps loop.1 loop.2.2 size = .error (.panic "frame: invalid zero duration") := if_pos hzero
  simp only [hrefused] at hprops
  cases hprops

end

end Roc.Audio.Depacketizer
