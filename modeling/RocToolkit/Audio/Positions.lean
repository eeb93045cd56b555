import RocToolkit.Audio.Depacketizer

/-!
# RocToolkit.Audio.Positions

Positions of the PCM depacketizer. Stream timestamps are compared by signed differences of 32-bit numbers, and
the packet in hand never begins before the stream position (`Inv`). One call of `read_samples_` writes silence
up to the packet in hand and then ticks of it (`Round`).

The two assertions about positions hold for every packet but one: a packet whose timestamp is exactly half the
range away from the stream position is before it and after it at once, and if it is empty (or longer than
half the range) it is not dropped as late (`HalfAway`).
-/

namespace Roc.Audio

open PcmDecoder

/-! ## Timestamps -/

theorem streamTimestampLt_iff (a b : StreamTimestamp) : streamTimestampLt a b = true ↔ 2 ^ 31 ≤ (a - b).toNat := by
  have := (a - b).isLt
  rw [streamTimestampLt, streamTimestampDiff, BitVec.toInt_eq_toNat_cond]
  split
  · simp only [decide_eq_true_eq]; omega
  · simp only [decide_eq_true_eq]; omega

variable {a b : StreamTimestamp}

theorem streamTimestampDiff_of_lt (h : (a - b).toNat < 2 ^ 31) : streamTimestampDiff a b = (a - b).toNat := by
  rw [streamTimestampDiff, BitVec.toInt_eq_toNat_cond, if_pos (by omega)]

theorem streamTimestampDiff_of_ge (h : 2 ^ 31 ≤ (a - b).toNat) : streamTimestampDiff a b = (a - b).toNat - 2 ^ 32 := by
  rw [streamTimestampDiff, BitVec.toInt_eq_toNat_cond, if_neg (by omega)]
  rfl

namespace Depacketizer

variable {σ : Type}

def ticksOf (format : PcmFormat σ) (channels : Nat) (packet : PcmPacket) : Nat :=
  PcmDecoder.total format channels packet.payload

def Late (format : PcmFormat σ) (channels : Nat) (streamTs : StreamTimestamp) (packet : PcmPacket) : Prop :=
  streamTimestampLt streamTs (packet.streamTimestamp + BitVec.ofNat 32 (ticksOf format channels packet)) = false

def HalfAway (format : PcmFormat σ) (channels : Nat) (streamTs : StreamTimestamp) (packet : PcmPacket) : Prop :=
  (streamTs - packet.streamTimestamp).toNat = 2 ^ 31 ∧
    (ticksOf format channels packet = 0 ∨ 2 ^ 31 < ticksOf format channels packet)

instance (format : PcmFormat σ) (channels : Nat) (streamTs : StreamTimestamp) (packet : PcmPacket) :
    Decidable (Late format channels streamTs packet) := inferInstanceAs (Decidable (_ = _))

instance (format : PcmFormat σ) (channels : Nat) (streamTs : StreamTimestamp) (packet : PcmPacket) :
    Decidable (HalfAway format channels streamTs packet) := inferInstanceAs (Decidable (_ ∧ _))

def Fetchable (format : PcmFormat σ) (channels : Nat) (streamTs : StreamTimestamp) : List (Option PcmPacket) → Prop
  | some packet :: rest =>
    ¬ HalfAway format channels streamTs packet ∧
      (Late format channels streamTs packet → Fetchable format channels streamTs rest)
  | _ => True

/-- `update_packet_` will not read such a packet. The first packet sets the stream position. -/
def Safe (d : Depacketizer σ) : Prop :=
  d.packet = none → d.firstPacket = false → Fetchable d.format d.channels d.streamTs d.reader

section
variable {format : PcmFormat σ} {channels : Nat} {streamTs : StreamTimestamp} {packet : PcmPacket}

theorem skip_lt (hlate : ¬ Late format channels streamTs packet) (hhalf : ¬ HalfAway format channels streamTs packet)
    (hlt : streamTimestampLt packet.streamTimestamp streamTs = true) :
    streamTimestampDiff streamTs packet.streamTimestamp = (streamTs - packet.streamTimestamp).toNat ∧
      (streamTs - packet.streamTimestamp).toNat < ticksOf format channels packet := by
  have htotal := total_lt format channels packet.payload
  rw [Late, Bool.not_eq_false, streamTimestampLt_iff] at hlate
  rw [streamTimestampLt_iff] at hlt
  rw [HalfAway] at hhalf
  rw [ticksOf] at hlate hhalf ⊢
  have hle : (streamTs - packet.streamTimestamp).toNat ≤ 2 ^ 31 := by bv_omega
  have hcases : (streamTs - packet.streamTimestamp).toNat < total format channels packet.payload ∨
      ((streamTs - packet.streamTimestamp).toNat = 2 ^ 31 ∧
        total format channels packet.payload = 0) := by bv_omega
  have hne : (streamTs - packet.streamTimestamp).toNat ≠ 2 ^ 31 := by
    intro heq
    exact hhalf ⟨heq, by omega⟩
  exact ⟨streamTimestampDiff_of_lt (by omega), by omega⟩

end

/-! ## Reading a packet -/

/-- What `fetchLoop` returns for a reader: packets that end too early are dropped, and the next one is begun. -/
inductive Fetched (format : PcmFormat σ) (channels : Nat) (firstPacket : Bool) (streamTs : StreamTimestamp) :
    List (Option PcmPacket) → Option PcmPacket → List (Option PcmPacket) → PcmDecoder → Prop
  | none {reader : List (Option PcmPacket)} {dec : PcmDecoder} (hdec : dec.Idle)
      (hreader : reader = []) : Fetched format channels firstPacket streamTs reader none [] dec
  | noData {rest : List (Option PcmPacket)} {dec : PcmDecoder} (hdec : dec.Idle) :
      Fetched format channels firstPacket streamTs (none :: rest) none rest dec
  | found {packet : PcmPacket} {rest : List (Option PcmPacket)} {dec : PcmDecoder}
      (hdec : dec.Reading format channels packet.streamTimestamp packet.payload 0)
      (htime : firstPacket = true ∨ ¬ Late format channels streamTs packet) :
      Fetched format channels firstPacket streamTs (some packet :: rest) (some packet) rest dec
  | dropped {packet : PcmPacket} {rest left : List (Option PcmPacket)} {found : Option PcmPacket}
      {dec : PcmDecoder} (hfirst : firstPacket = false) (hlate : Late format channels streamTs packet)
      (hrest : Fetched format channels firstPacket streamTs rest found left dec) :
      Fetched format channels firstPacket streamTs (some packet :: rest) found left dec

section
variable (format : PcmFormat σ) (channels : Nat) (firstPacket : Bool) (streamTs : StreamTimestamp)

theorem fetchLoop_spec : ∀ (reader : List (Option PcmPacket)) {dec : PcmDecoder}, dec.Idle → ∃ found left dec' dropped,
      fetchLoop format channels firstPacket streamTs reader dec = .ok (found, left, dec', dropped) ∧
        Fetched format channels firstPacket streamTs reader found left dec' := by
  intro reader
  induction reader with
  | nil => intro dec hdec; exact ⟨none, [], dec, 0, rfl, .none hdec rfl⟩
  | cons entry rest ih =>
    intro dec hdec
    cases entry with
    | none => exact ⟨none, rest, dec, 0, rfl, .noData hdec⟩
    | some packet =>
      obtain ⟨dec1, hbegin, hreading⟩ := begin_spec format channels hdec packet.streamTimestamp packet.payload
      have hend : dec1.streamPos + dec1.streamAvail =
          packet.streamTimestamp + BitVec.ofNat 32 (ticksOf format channels packet) := by
        rw [hreading.streamPos, hreading.streamAvail]
        simp [ticksOf]
      by_cases htime : (firstPacket || streamTimestampLt streamTs (dec1.streamPos + dec1.streamAvail)) = true
      · refine ⟨some packet, rest, dec1, 0, by simp only [fetchLoop, hbegin, ok_bind, htime, if_pos]; rfl,
          .found hreading ?_⟩
        rw [hend, Bool.or_eq_true] at htime
        exact htime.imp id fun h => by rw [Late, h]; simp
      · obtain ⟨dec2, hfinish, hidle⟩ := finish_spec hreading
        obtain ⟨found, left, dec', dropped, hloop, hfetched⟩ := ih hidle
        refine ⟨found, left, dec', dropped + 1, ?_, .dropped ?_ ?_ hfetched⟩
        · simp only [fetchLoop, hbegin, ok_bind, htime, hfinish, hloop, pure_eq_ok]
          rfl
        · cases firstPacket with
          | true => simp at htime
          | false => rfl
        · simp only [Bool.or_eq_true, not_or, Bool.not_eq_true] at htime
          rw [Late, ← hend]
          exact htime.2

end

section
variable {format : PcmFormat σ} {channels : Nat} {firstPacket : Bool} {streamTs : StreamTimestamp}
  {reader left : List (Option PcmPacket)} {found : Option PcmPacket} {packet : PcmPacket} {dec : PcmDecoder}

section
variable (h : Fetched format channels firstPacket streamTs reader found left dec)
include h

theorem Fetched.idle (hfound : found = Option.none) : dec.Idle := by
  induction h with
  | none hdec _ => exact hdec
  | noData hdec => exact hdec
  | found _ _ => cases hfound
  | dropped _ _ _ ih => exact ih hfound

theorem Fetched.begun (hfound : found = some packet) :
    dec.Reading format channels packet.streamTimestamp packet.payload 0 ∧
      (firstPacket = true ∨ ¬ Late format channels streamTs packet) := by
  induction h with
  | none _ _ => cases hfound
  | noData _ => cases hfound
  | found hdec htime => cases hfound; exact ⟨hdec, htime⟩
  | dropped _ _ _ ih => exact ih hfound

end

theorem Fetched.first (h : Fetched format channels true streamTs reader (some packet) left dec) :
    reader = some packet :: left := by
  cases h with
  | found _ _ => rfl
  | dropped hfirst _ _ => cases hfirst

theorem Fetched.not_halfAway (h : Fetched format channels firstPacket streamTs reader found left dec)
    (hfound : found = some packet) (hreader : Fetchable format channels streamTs reader) :
    ¬ HalfAway format channels streamTs packet := by
  induction h with
  | none _ _ => cases hfound
  | noData _ => cases hfound
  | found _ _ => cases hfound; exact hreader.1
  | dropped _ hlate _ ih => exact ih hfound (hreader.2 hlate)

end

def skipped (firstPacket : Bool) (streamTs : StreamTimestamp) (packet : PcmPacket) : Nat :=
  if firstPacket = false ∧ streamTimestampLt packet.streamTimestamp streamTs = true then
    (streamTs - packet.streamTimestamp).toNat
  else 0

/-- The state with `packet` in hand, and the decoder in it. -/
def started (d : Depacketizer σ) (packet : PcmPacket) (decoder : PcmDecoder) : Depacketizer σ :=
  { d with
    packet := some packet
    decoder := decoder
    streamTs := if d.firstPacket then packet.streamTimestamp else d.streamTs
    firstPacket := false
    validCaptureTs := d.validCaptureTs || decide (packet.captureTimestamp ≠ 0)
    nextCaptureTs := if skipped d.firstPacket d.streamTs packet ≠ 0 &&
          (d.validCaptureTs || decide (packet.captureTimestamp ≠ 0)) then
        packet.captureTimestamp + d.sampleSpec.samplesPerChanToNs (skipped d.firstPacket d.streamTs packet)
      else packet.captureTimestamp }

variable {d : Depacketizer σ} {packet : PcmPacket}

theorem skipLate_eq {ts : StreamTimestamp} {data : List UInt8} {n : Nat}
    (hdec : d.decoder.Reading d.format d.channels ts data 0)
    (hlt : streamTimestampLt ts d.streamTs = true) (hdiff : streamTimestampDiff d.streamTs ts = n)
    (hticks : n ≤ total d.format d.channels data) :
    ∃ decoder, d.skipLate ts = .ok
        { d with
          decoder := decoder
          nextCaptureTs := if d.validCaptureTs then d.nextCaptureTs + d.sampleSpec.samplesPerChanToNs n
            else d.nextCaptureTs } ∧
      decoder.Reading d.format d.channels ts data n := by
  have hcast : ((n : Int) % 18446744073709551616).toNat = n := by
    have := total_lt d.format d.channels data
    omega
  obtain ⟨decoder, hshift, hreading⟩ := shift_spec hdec n
  rw [Nat.sub_zero, Nat.min_eq_left hticks] at hshift hreading
  rw [Nat.zero_add] at hreading
  refine ⟨decoder, ?_, hreading⟩
  cases hvalid : d.validCaptureTs with
  | false => simp [skipLate, hlt, hdiff, hcast, hvalid, hshift]
  | true =>
    have hshift' : shift d.format (channels { d with
          nextCaptureTs := d.nextCaptureTs + d.sampleSpec.samplesPerChanToNs n
          validCaptureTs := true }) d.decoder n = .ok (n, decoder) := hshift
    simp [skipLate, hlt, hdiff, hcast, hvalid, hshift']

theorem startPacket_eq (hdec : d.decoder.Reading d.format d.channels packet.streamTimestamp packet.payload 0)
    (htime : d.firstPacket = true ∨ ¬ Late d.format d.channels d.streamTs packet)
    (hhalf : d.firstPacket = false → ¬ HalfAway d.format d.channels d.streamTs packet) :
    ∃ decoder, d.startPacket packet = .ok (d.started packet decoder) ∧
      decoder.Reading d.format d.channels packet.streamTimestamp packet.payload
        (skipped d.firstPacket d.streamTs packet) := by
  have hpos : d.decoder.streamPos = packet.streamTimestamp := by rw [hdec.streamPos]; simp
  cases hfirst : d.firstPacket with
  | true =>
    have hself : streamTimestampLt packet.streamTimestamp packet.streamTimestamp = false := by
      simp [streamTimestampLt, streamTimestampDiff]
    have hskip : skipped true d.streamTs packet = 0 := by simp [skipped]
    refine ⟨d.decoder, ?_, by rw [hskip]; exact hdec⟩
    simp [startPacket, skipLate, hpos, hfirst, hself, started, hskip]
  | false =>
    by_cases hlt : streamTimestampLt packet.streamTimestamp d.streamTs = true
    · obtain ⟨hdiff, hticks⟩ := skip_lt (htime.resolve_left (by simp [hfirst])) (hhalf hfirst) hlt
      have hskip : skipped false d.streamTs packet = (d.streamTs - packet.streamTimestamp).toNat := by
        simp [skipped, hlt]
      have hne : (d.streamTs - packet.streamTimestamp).toNat ≠ 0 := by
        rw [streamTimestampLt_iff] at hlt
        bv_omega
      obtain ⟨decoder, heq, hreading⟩ := skipLate_eq (d := { d with
          packet := some packet
          nextCaptureTs := packet.captureTimestamp
          validCaptureTs := d.validCaptureTs || decide (packet.captureTimestamp ≠ 0)
          firstPacket := false })
        hdec hlt hdiff (Nat.le_of_lt hticks)
      refine ⟨decoder, ?_, by rw [hskip]; exact hreading⟩
      simp only [startPacket, hpos, hfirst, Bool.false_eq_true, if_false]
      refine heq.trans (congrArg Except.ok ?_)
      simp [started, hfirst, hskip, hne, -BitVec.toNat_sub]
    · have hskip : skipped false d.streamTs packet = 0 := by simp [skipped, hlt]
      refine ⟨d.decoder, ?_, by rw [hskip]; exact hdec⟩
      simp [startPacket, skipLate, hpos, hfirst, hlt, started, hskip]

/-! ## The states between two rounds -/

structure Waiting (d : Depacketizer σ) : Prop where
  inHand : d.packet = none
  idle : d.decoder.Idle

/-- `packet` is in hand, `k` of its ticks are played or skipped, and the next one is `gap` ticks ahead. -/
structure Playing (d : Depacketizer σ) (packet : PcmPacket) (k gap : Nat) : Prop where
  inHand : d.packet = some packet
  firstPacket : d.firstPacket = false
  reading : d.decoder.Reading d.format d.channels packet.streamTimestamp packet.payload k
  gap_lt : gap < 2 ^ 31
  ahead : packet.streamTimestamp + BitVec.ofNat 32 k = d.streamTs + BitVec.ofNat 32 gap

/-- What holds between two calls of `read_samples_`. -/
def Inv (d : Depacketizer σ) : Prop := d.Waiting ∨ ∃ packet k gap, d.Playing packet k gap

def gapBefore (firstPacket : Bool) (streamTs : StreamTimestamp) (packet : PcmPacket) : Nat :=
  if firstPacket = true ∨ streamTimestampLt packet.streamTimestamp streamTs = true then 0
  else (packet.streamTimestamp - streamTs).toNat

theorem started_playing {decoder : PcmDecoder}
    (hdec : decoder.Reading d.format d.channels packet.streamTimestamp packet.payload
      (skipped d.firstPacket d.streamTs packet)) :
    (d.started packet decoder).Playing packet (skipped d.firstPacket d.streamTs packet)
      (gapBefore d.firstPacket d.streamTs packet) where
  inHand := rfl
  firstPacket := rfl
  reading := hdec
  gap_lt := by
    rw [gapBefore]
    split
    · decide
    · rename_i h
      rw [streamTimestampLt_iff] at h
      omega
  ahead := by
    simp only [started, skipped, gapBefore]
    cases d.firstPacket with
    | true => simp
    | false =>
      by_cases hlt : streamTimestampLt packet.streamTimestamp d.streamTs = true
      · simp only [hlt, and_self, if_true, or_true, Bool.false_eq_true, if_false]
        bv_omega
      · simp only [hlt, and_false, if_false, or_false, Bool.false_eq_true]
        bv_omega

/-! ## What the parts of a round do -/

theorem readMissingSamples_eq (d : Depacketizer σ) (n : Nat) : d.readMissingSamples n = (d.filling n,
      { d with
        streamTs := d.streamTs + BitVec.ofNat 32 n
        zeroSamples := if d.firstPacket then d.zeroSamples + BitVec.ofNat 32 n else d.zeroSamples
        missingSamples := if d.firstPacket then d.missingSamples else d.missingSamples + BitVec.ofNat 32 n }) := by
  cases hfirst : d.firstPacket with
  | true | false => simp [readMissingSamples, hfirst]

theorem advanceCapture_eq (d : Depacketizer σ) (n : Nat) : d.advanceCapture n =
      { d with
        nextCaptureTs := if d.validCaptureTs then d.nextCaptureTs + d.sampleSpec.samplesPerChanToNs n
          else d.nextCaptureTs } := by
  cases hvalid : d.validCaptureTs with
  | true => simp [advanceCapture, hvalid]
  | false =>
    simp only [advanceCapture, hvalid, Bool.false_eq_true, if_false]
    rw [← hvalid]

/-- The `m` ticks of a packet from the `k`-th on. -/
def ticksFrom (d : Depacketizer σ) (packet : PcmPacket) (k m : Nat) : List (Tick σ) :=
  (List.range m).map fun i => d.format.tick d.channels packet.payload (k + i)

theorem updatePacket_in_hand {info : FrameInfo} {k gap : Nat} (h : d.Playing packet k gap) :
    d.updatePacket info = .ok (d, info) := by
  simp [updatePacket, h.inHand]

theorem updatePacket_waiting (hwait : d.Waiting) (hsafe : d.Safe) (info : FrameInfo) : ∃ found left dec dropped,
      Fetched d.format d.channels d.firstPacket d.streamTs d.reader found left dec ∧
      ((found = none ∧ dec.Idle ∧
          d.updatePacket info = .ok ({ d with reader := left, decoder := dec },
            { info with numDroppedPackets := info.numDroppedPackets + dropped })) ∨
        ∃ packet decoder, found = some packet ∧
          decoder.Reading d.format d.channels packet.streamTimestamp packet.payload
            (skipped d.firstPacket d.streamTs packet) ∧
          d.updatePacket info = .ok (started { d with reader := left } packet decoder,
            { info with numDroppedPackets := info.numDroppedPackets + dropped })) := by
  obtain ⟨found, left, dec, dropped, hloop, hfetched⟩ :=
    fetchLoop_spec d.format d.channels d.firstPacket d.streamTs d.reader hwait.idle
  refine ⟨found, left, dec, dropped, hfetched, ?_⟩
  cases found with
  | none =>
    refine .inl ⟨rfl, hfetched.idle rfl, ?_⟩
    simp [updatePacket, hwait.inHand, hloop]
  | some packet =>
    obtain ⟨hreading, htime⟩ := hfetched.begun rfl
    obtain ⟨decoder, hstart, hskip⟩ :=
      startPacket_eq (d := { d with reader := left, decoder := dec }) hreading htime fun hfirst =>
        hfetched.not_halfAway rfl (hsafe hwait.inHand hfirst)
    refine .inr ⟨packet, decoder, rfl, hskip, ?_⟩
    have hnone : d.packet.isSome = false := by rw [hwait.inHand]; rfl
    simp only [updatePacket, hnone, Bool.false_eq_true, if_false, hloop, ok_bind, hstart, pure_eq_ok]
    rfl

end Depacketizer
end Roc.Audio
