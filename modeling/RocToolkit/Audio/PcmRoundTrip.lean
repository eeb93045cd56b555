import RocToolkit.Audio.Packetizer
import RocToolkit.Audio.PcmPlayback

/-!
# RocToolkit.Audio.PcmRoundTrip

Packetizer and depacketizer together. The packets that are sent carry the written stream: each one the ticks
after those of the one before, with the next sequence number, the timestamp of its first tick and that tick's
capture time (`Carries`). The depacketizer plays such packets back as they were written, whatever the sizes of
the frames on both sides, and silence after them.
-/

namespace Roc.Audio

open List Nat

/-! ## Samples in a payload -/

section
variable {σ : Type} {channels : Nat} {ticks : List (Tick σ)}

section
variable (hwhole : ∀ tick ∈ ticks, tick.length = channels)
include hwhole

theorem length_flatten_whole : ticks.flatten.length = ticks.length * channels := by
  induction ticks with
  | nil => simp
  | cons tick rest ih =>
    rw [flatten_cons, length_append, length_cons, succ_mul,
      hwhole tick mem_cons_self, ih (forall_mem_cons.mp hwhole).2, add_comm]

theorem getElem?_flatten_whole (i : Nat) {c : Nat}
    (hc : c < channels) : ticks.flatten[i * channels + c]? = ticks[i]?.bind (·[c]?) := by
  induction ticks generalizing i with
  | nil => simp
  | cons tick rest ih =>
    have htick := hwhole tick mem_cons_self
    rw [flatten_cons]
    cases i with
    | zero => rw [zero_mul, zero_add, List.getElem?_append_left (by omega)]; simp
    | succ i =>
      rw [List.getElem?_append_right (by rw [succ_mul]; omega), List.getElem?_cons_succ,
        ← ih (forall_mem_cons.mp hwhole).2 i]
      congr 1
      rw [succ_mul]
      omega

end
end

namespace PcmCodec

variable {σ : Type} (codec : PcmCodec σ)

def Encoded (data : List UInt8) (samples : List σ) : Prop :=
  ∀ (i : Nat) (h : i < samples.length), codec.unpack data (i * codec.bitWidth) = samples[i]

theorem length_packAll (data : List UInt8) (off : Nat) (samples : List σ) :
    (codec.packAll data off samples).length = data.length := by
  induction samples generalizing data off with
  | nil => rfl
  | cons v rest ih => rw [packAll, ih, codec.length_pack]

theorem unpack_packAll_before (data : List UInt8) {off off' : Nat} (samples : List σ)
    (h : off' + codec.bitWidth ≤ off) :
    codec.unpack (codec.packAll data off samples) off' = codec.unpack data off' := by
  induction samples generalizing data off with
  | nil => rfl
  | cons v rest ih => rw [packAll, ih _ (by omega), codec.unpack_pack_of_disjoint v (.inl h)]

theorem unpack_packAll (data : List UInt8) (off : Nat) (samples : List σ)
    (hfit : off + samples.length * codec.bitWidth ≤ data.length * 8) (i : Nat) (hi : i < samples.length) :
    codec.unpack (codec.packAll data off samples) (off + i * codec.bitWidth) = samples[i] := by
  induction samples generalizing data off i with
  | nil => exact absurd hi (not_lt_zero i)
  | cons v rest ih =>
    rw [length_cons, succ_mul] at hfit
    rw [packAll]
    cases i with
    | zero =>
      rw [zero_mul, add_zero, codec.unpack_packAll_before _ _ (le_refl _), codec.unpack_pack v (by omega)]
      rfl
    | succ i =>
      rw [length_cons] at hi
      have := ih (codec.pack data off v) (off + codec.bitWidth) (by rw [codec.length_pack]; omega) i (by omega)
      rwa [add_assoc, add_comm codec.bitWidth, ← succ_mul] at this

section
variable {data : List UInt8} {samples : List σ} (h : codec.Encoded data samples)
include h

theorem Encoded.packAll (more : List σ) (hfit : (samples.length + more.length) * codec.bitWidth ≤ data.length * 8) :
    codec.Encoded (codec.packAll data (samples.length * codec.bitWidth) more) (samples ++ more) := by
  intro i hi
  rw [Nat.add_mul] at hfit
  by_cases hold : i < samples.length
  · rw [getElem_append_left hold, codec.unpack_packAll_before]
    · exact h i hold
    · rw [← Nat.succ_mul]
      exact Nat.mul_le_mul_right _ hold
  · rw [length_append] at hi
    rw [getElem_append_right (by omega),
      ← codec.unpack_packAll data (samples.length * codec.bitWidth) more hfit (i - samples.length) (by omega),
      ← Nat.add_mul, Nat.add_sub_cancel' (by omega)]

theorem Encoded.take {n : Nat}
    (hfit : samples.length * codec.bitWidth ≤ n * 8) : codec.Encoded (data.take n) samples := by
  intro i hi
  rw [← h i hi]
  refine codec.unpack_take (le_trans ?_ hfit)
  rw [← succ_mul]
  exact mul_le_mul_right _ hi

end

/-! ## Ticks in a payload -/

theorem bits_le_encodedByteCount (channels n : Nat) :
    n * channels * codec.bitWidth ≤ codec.encodedByteCount channels n * 8 := by
  rw [encodedByteCount]
  omega

variable {channels : Nat}

theorem numTicks_encodedByteCount (hc : 0 < channels) (n : Nat) :
    codec.numTicks channels (codec.encodedByteCount channels n) = n := by
  have hw := codec.bitWidth_ge
  have hsamples : codec.encodedByteCount channels n * 8 / codec.bitWidth = n * channels := by
    refine Nat.div_eq_of_lt_le (codec.bits_le_encodedByteCount channels n) ?_
    rw [Nat.succ_mul, encodedByteCount]
    omega
  rw [PcmFormat.numTicks, hsamples, Nat.mul_div_cancel _ hc]

theorem encodedByteCount_le {n m : Nat} (h : n ≤ m) :
    codec.encodedByteCount channels n ≤ codec.encodedByteCount channels m := by
  have := mul_le_mul_right codec.bitWidth (mul_le_mul_right channels h)
  rw [encodedByteCount, encodedByteCount]
  omega

theorem Encoded.tick {data : List UInt8} {ticks : List (Tick σ)}
    (h : codec.Encoded data ticks.flatten) (hwhole : ∀ tick ∈ ticks, tick.length = channels) (i : Nat)
    (hi : i < ticks.length) : codec.tick channels data i = ticks[i] := by
  have hlength : ticks[i].length = channels := hwhole _ (getElem_mem hi)
  refine ext_getElem (by simp [PcmFormat.tick, PcmFormat.tickAt, hlength]) fun c hc hc' => ?_
  have hflat : ticks.flatten[i * channels + c]? = some ticks[i][c] := by
    rw [getElem?_flatten_whole hwhole i (by omega), List.getElem?_eq_getElem hi]
    simp [List.getElem?_eq_getElem hc']
  obtain ⟨hbound, hvalue⟩ := List.getElem?_eq_some_iff.mp hflat
  rw [← hvalue, ← h _ hbound, add_mul]
  simp [PcmFormat.tick, PcmFormat.tickAt]

end PcmCodec

/-! ## The written stream -/

abbrev TimedTick (σ : Type) := Tick σ × Int

section
variable {σ : Type}

/-- The capture time of the `j`-th tick of a frame; 0 stands for no capture time. -/
def tickTime (spec : SampleSpec) (captureTs : Int) (j : Nat) : Int :=
  if captureTs = 0 then 0 else captureTs + spec.samplesPerChanToNs j

/-- Ticks of a frame from the `j`-th on, with their capture times. -/
def timed (spec : SampleSpec) (captureTs : Int) (j : Nat) (ticks : List (Tick σ)) : List (TimedTick σ) :=
  (ticks.zipIdx j).map fun t => (t.1, tickTime spec captureTs t.2)

def written {channels : Nat} (spec : SampleSpec) (frames : List (InFrame σ channels)) : List (TimedTick σ) :=
  frames.flatMap fun frame => timed spec frame.captureTs 0 frame.ticks

section
variable (spec : SampleSpec) (captureTs : Int) (j : Nat)
include spec captureTs j

@[simp] theorem length_timed (ticks : List (Tick σ)) :
    (timed spec captureTs j ticks).length = ticks.length := by simp [timed]

theorem timed_append (a b : List (Tick σ)) : timed spec captureTs j (a ++ b) =
      timed spec captureTs j a ++ timed spec captureTs (j + a.length) b := by
  simp [timed, zipIdx_append]

@[simp] theorem map_fst_timed (ticks : List (Tick σ)) : (timed spec captureTs j ticks).map Prod.fst = ticks := by
  simp [timed, Function.comp_def]

theorem head?_timed {ticks : List (Tick σ)} (h : ticks ≠ []) :
    (timed spec captureTs j ticks).head?.map Prod.snd = some (tickTime spec captureTs j) := by
  cases ticks with
  | nil => exact absurd rfl h
  | cons tick rest => simp [timed]

end
end

/-! ## Packets that carry a stream -/

section
variable {σ : Type} (codec : PcmCodec σ) (channels : Nat)

structure Carried (packet : RtpPacket) (chunk : List (TimedTick σ)) : Prop where
  duration : packet.packet.duration = BitVec.ofNat 32 chunk.length
  captureTimestamp : chunk.head?.map Prod.snd = some packet.packet.captureTimestamp
  whole : ∀ tick ∈ chunk.map Prod.fst, tick.length = channels
  size : packet.packet.payload.length = codec.encodedByteCount channels chunk.length
  encoded : codec.Encoded packet.packet.payload (chunk.map Prod.fst).flatten

/-- Packets of at most `limit` ticks carry a stream, the first of them with the given sequence number and
timestamp. -/
inductive Carries (limit : Nat) :
    BitVec 16 → StreamTimestamp → List RtpPacket → List (TimedTick σ) → Prop
  | nil {seqnum : BitVec 16} {ts : StreamTimestamp} : Carries limit seqnum ts [] []
  | cons {seqnum : BitVec 16} {ts : StreamTimestamp} {packet : RtpPacket} {rest : List RtpPacket}
      {chunk stream : List (TimedTick σ)} (hseqnum : packet.seqnum = seqnum)
      (hts : packet.packet.streamTimestamp = ts) (hlimit : chunk.length ≤ limit)
      (hpacket : Carried codec channels packet chunk)
      (hrest : Carries limit (seqnum + 1) (ts + BitVec.ofNat 32 chunk.length) rest stream) :
      Carries limit seqnum ts (packet :: rest) (chunk ++ stream)

variable {codec channels} {packet : RtpPacket} {chunk : List (TimedTick σ)}

theorem Carried.ne_nil (h : Carried codec channels packet chunk) : chunk ≠ [] := by
  rintro rfl
  have := h.captureTimestamp
  cases this

theorem Carries.snoc {limit : Nat} {seqnum : BitVec 16} {ts : StreamTimestamp} {sent : List RtpPacket}
    {done : List (TimedTick σ)} (h : Carries codec channels limit seqnum ts sent done)
    (hseqnum : packet.seqnum = seqnum + BitVec.ofNat 16 sent.length)
    (hts : packet.packet.streamTimestamp = ts + BitVec.ofNat 32 done.length) (hlimit : chunk.length ≤ limit)
    (hpacket : Carried codec channels packet chunk) :
    Carries codec channels limit seqnum ts (sent ++ [packet]) (done ++ chunk) := by
  induction h with
  | nil =>
    have := Carries.cons (by simpa using hseqnum) (by simpa using hts) hlimit hpacket .nil
    simpa using this
  | cons hseqnum1 hts1 hlimit1 hpacket1 _ ih =>
    rw [cons_append, append_assoc]
    refine .cons hseqnum1 hts1 hlimit1 hpacket1 (ih ?_ ?_)
    · rw [hseqnum, length_cons, BitVec.add_assoc, Nat.add_comm, BitVec.ofNat_add]
      rfl
    · rw [hts, length_append, BitVec.add_assoc, ← BitVec.ofNat_add]

end

structure SampleSpec.Linear (spec : SampleSpec) : Prop where
  add : ∀ a b, spec.samplesPerChanToNs (a + b) = spec.samplesPerChanToNs a + spec.samplesPerChanToNs b
  nonneg : ∀ n, 0 ≤ spec.samplesPerChanToNs n

/-- Advancing `capture_ts_` by the ticks that are encoded keeps it the capture time of the next tick. -/
theorem tickTime_add {spec : SampleSpec} (hspec : spec.Linear) {captureTs : Int} (hcts : 0 ≤ captureTs) (j n : Nat) :
    (if tickTime spec captureTs j ≠ 0 then tickTime spec captureTs j + spec.samplesPerChanToNs n
      else tickTime spec captureTs j) = tickTime spec captureTs (j + n) := by
  have hnonneg := hspec.nonneg j
  by_cases hzero : captureTs = 0
  · simp [tickTime, hzero]
  · simp only [tickTime, hzero, if_false, hspec.add]
    rw [if_pos (by omega)]
    omega

namespace Packetizer

variable {σ : Type} {config : PacketizerConfig σ} {p : Packetizer} {seqnum : BitVec 16} {ts : StreamTimestamp}
  {done chunk : List (TimedTick σ)} {data : List UInt8}

/-- The packets sent so far carry `done`, and the next one goes on from there. -/
structure SentSoFar (config : PacketizerConfig σ) (p : Packetizer) (seqnum : BitVec 16) (ts : StreamTimestamp)
    (done : List (TimedTick σ)) : Prop where
  carries : Carries config.codec config.channels config.samplesPerPacket seqnum ts p.sent done
  seqnum : p.sequencer.seqnum = seqnum + BitVec.ofNat 16 p.sent.length
  streamTs : p.sequencer.streamTs = ts + BitVec.ofNat 32 done.length

/-- The packet in hand has `chunk` in it so far. -/
structure Filling (config : PacketizerConfig σ) (p : Packetizer) (chunk : List (TimedTick σ))
    (data : List UInt8) : Prop where
  inHand : p.packet = true
  encoder : p.encoder =
    { frameData := some data, frameBitOff := chunk.length * config.channels * config.codec.bitWidth }
  size : data.length = config.payloadSize
  encoded : config.codec.Encoded data (chunk.map Prod.fst).flatten
  whole : ∀ tick ∈ chunk.map Prod.fst, tick.length = config.channels
  packetPos : p.packetPos = chunk.length
  le : chunk.length ≤ config.samplesPerPacket

theorem Filling.padded (h : Filling config p chunk data) : ∃ payload, padPacket config p.packetPos data
          (config.codec.encodedByteCount config.channels p.packetPos) = .ok payload ∧
      payload.length = config.codec.encodedByteCount config.channels chunk.length ∧
      config.codec.Encoded payload (chunk.map Prod.fst).flatten := by
  have hle := h.le
  have hsize := h.size
  have hbytes : config.codec.encodedByteCount config.channels chunk.length ≤ config.payloadSize :=
    config.codec.encodedByteCount_le h.le
  rw [h.packetPos, padPacket]
  by_cases hfull : chunk.length < config.samplesPerPacket
  · rw [if_neg (by simpa using hfull)]
    by_cases hsame : config.codec.encodedByteCount config.channels chunk.length = config.payloadSize
    · exact ⟨data, by rw [if_pos hsame], by omega, h.encoded⟩
    · refine ⟨_, by rw [if_neg hsame, if_neg (by omega)], by rw [length_take]; omega, h.encoded.take _ ?_⟩
      rw [length_flatten_whole h.whole, length_map, h.size, Nat.sub_sub_self hbytes]
      exact config.codec.bits_le_encodedByteCount config.channels chunk.length
  · rw [if_pos hfull]
    have hlength : chunk.length = config.samplesPerPacket := by omega
    exact ⟨data, rfl, by rw [h.size, PacketizerConfig.payloadSize, hlength], h.encoded⟩

theorem endPacket_spec (hsent : SentSoFar config p seqnum ts done) (h : Filling config p chunk data)
    (hcts : chunk.head?.map Prod.snd = some p.packetCts) :
    ∃ p', p.endPacket config = .ok p' ∧ SentSoFar config p' seqnum ts (done ++ chunk) ∧ p'.packet = false ∧
      p'.encoder = {} ∧ p'.captureTs = p.captureTs ∧ p'.sent.length = p.sent.length + 1 := by
  obtain ⟨payload, hpadded, hlength, hencoded⟩ := h.padded
  have hbytes : ¬ config.codec.encodedByteCount config.channels p.packetPos > config.payloadSize := by
    have hle : config.codec.encodedByteCount config.channels chunk.length ≤ config.payloadSize :=
      config.codec.encodedByteCount_le h.le
    rw [h.packetPos]
    omega
  have hend : p.endPacket config = .ok
      { p with
        encoder := {}
        sequencer := (p.sequencer.next p.packetCts (BitVec.ofNat 32 p.packetPos) payload).2
        sent := p.sent ++ [(p.sequencer.next p.packetCts (BitVec.ofNat 32 p.packetPos) payload).1]
        packet := false
        packetPos := 0
        packetCts := 0 } := by
    have hfinish : p.encoder.finish = .ok (data, {}) := by rw [h.encoder]; rfl
    simp only [endPacket, hbytes, if_false, hfinish, ok_bind, hpadded, pure_eq_ok]
  refine ⟨_, hend, ⟨?_, ?_, ?_⟩, rfl, rfl, rfl, by simp⟩
  · refine hsent.carries.snoc hsent.seqnum hsent.streamTs h.le ⟨?_, hcts, h.whole, hlength, hencoded⟩
    simp [Sequencer.next, h.packetPos]
  · simp only [Sequencer.next, hsent.seqnum, length_append, length_singleton, BitVec.ofNat_add, BitVec.add_assoc]
    rfl
  · simp only [Sequencer.next, hsent.streamTs, h.packetPos, length_append, BitVec.ofNat_add, BitVec.add_assoc]

variable {buffer : List (Tick σ)} {captureTs : Int}

theorem Filling.encode (h : Filling config p chunk data)
    (hwhole : ∀ tick ∈ buffer, tick.length = config.channels) {n : Nat} (hn : n ≤ buffer.length)
    (hroom : chunk.length + n ≤ config.samplesPerPacket) :
    ∃ data', p.encoder.write config.codec config.channels buffer n = .ok (n,
        { frameData := some data'
          frameBitOff := (chunk.length + n) * config.channels * config.codec.bitWidth }) ∧
      data'.length = config.payloadSize ∧
      config.codec.Encoded data' (chunk.map Prod.fst ++ buffer.take n).flatten := by
  have hw := config.codec.bitWidth_ge
  have hc : 0 < config.channels := config.sampleSpec.numChannels_pos
  have hfit : (chunk.length + n) * config.channels * config.codec.bitWidth ≤ data.length * 8 := by
    rw [h.size]
    exact (Nat.mul_le_mul_right _ (Nat.mul_le_mul_right _ hroom)).trans
      (config.codec.bits_le_encodedByteCount config.channels config.samplesPerPacket)
  have hsplit : (chunk.length + n) * config.channels * config.codec.bitWidth =
      chunk.length * config.channels * config.codec.bitWidth + n * config.channels * config.codec.bitWidth := by ring
  have hmapped : min (n * config.channels)
      ((data.length * 8 - chunk.length * config.channels * config.codec.bitWidth) / config.codec.bitWidth) =
      n * config.channels :=
    Nat.min_eq_left ((Nat.le_div_iff_mul_le (by omega)).mpr (by omega))
  have hbuffer : (buffer.take n).flatten.length = n * config.channels := by
    rw [length_flatten_whole fun tick ht => hwhole tick (mem_of_mem_take ht), length_take, Nat.min_eq_left hn]
  have hchunk : (chunk.map Prod.fst).flatten.length = chunk.length * config.channels := by
    rw [length_flatten_whole h.whole, length_map]
  refine ⟨config.codec.packAll data (chunk.length * config.channels * config.codec.bitWidth)
    (buffer.take n).flatten, ?_, (config.codec.length_packAll ..).trans h.size, ?_⟩
  · rw [h.encoder]
    simp only [PcmEncoder.write, hmapped, Nat.mul_div_cancel _ hc, gt_iff_lt, Nat.lt_irrefl, if_false,
      show ¬ data.length * 8 < chunk.length * config.channels * config.codec.bitWidth by omega, hsplit]
    rw [take_of_length_le (by omega)]
  · rw [flatten_append, ← hchunk]
    refine h.encoded.packAll _ _ ?_
    rw [hchunk, hbuffer, ← Nat.add_mul]
    exact hfit

/-- Between two rounds: the packets sent are full and carry `done`, and a packet in hand has the rest, but is not
full. -/
inductive Holds (config : PacketizerConfig σ) (p : Packetizer) (seqnum : BitVec 16) (ts : StreamTimestamp) :
    List (TimedTick σ) → Prop
  | idle {done : List (TimedTick σ)} (hsent : SentSoFar config p seqnum ts done)
      (hfull : done.length = p.sent.length * config.samplesPerPacket) (hpacket : p.packet = false)
      (hencoder : p.encoder = {}) : Holds config p seqnum ts done
  | filling {done chunk : List (TimedTick σ)} {data : List UInt8} (hsent : SentSoFar config p seqnum ts done)
      (hfull : done.length = p.sent.length * config.samplesPerPacket) (hfilling : Filling config p chunk data) (hlt : chunk.length < config.samplesPerPacket)
      (hcts : chunk.head?.map Prod.snd = some p.packetCts) : Holds config p seqnum ts (done ++ chunk)

def Supplied (config : PacketizerConfig σ) : Prop :=
  ∀ n, ∃ payload, config.newPacket n = some payload ∧ payload.length = config.payloadSize

theorem encodeSome_spec (hspec : config.sampleSpec.Linear) (hcts0 : 0 ≤ captureTs) {j : Nat}
    (hwhole : ∀ tick ∈ buffer, tick.length = config.channels) (hbuffer : buffer ≠ [])
    (hsent : SentSoFar config p seqnum ts done) (hdone : done.length = p.sent.length * config.samplesPerPacket)
    (h : Filling config p chunk data) (hlt : chunk.length < config.samplesPerPacket)
    (hnow : p.captureTs = tickTime config.sampleSpec captureTs j)
    (hcts : (chunk ++ timed config.sampleSpec captureTs j buffer).head?.map Prod.snd = some p.packetCts) :
    ∃ n p', p.encodeSome config buffer = .ok (n, p') ∧ 0 < n ∧ n ≤ buffer.length ∧
      p'.captureTs = tickTime config.sampleSpec captureTs (j + n) ∧
      Holds config p' seqnum ts (done ++ chunk ++ timed config.sampleSpec captureTs j (buffer.take n)) := by
  have hlength : 0 < buffer.length := length_pos_iff.mpr hbuffer
  obtain ⟨n, hn⟩ : ∃ n, n = min buffer.length (config.samplesPerPacket - chunk.length) := ⟨_, rfl⟩
  obtain ⟨data', hwrite, hsize, hencoded⟩ := h.encode hwhole (n := n) (by omega) (by omega)
  obtain ⟨q, hq⟩ : ∃ q : Packetizer, q =
      { p with
        encoder :=
          { frameData := some data'
            frameBitOff := (chunk.length + n) * config.channels * config.codec.bitWidth }
        packetPos := chunk.length + n
        captureTs := tickTime config.sampleSpec captureTs (j + n) } := ⟨_, rfl⟩
  have hcode : p.encodeSome config buffer = (q.endIfFull config >>= fun p => .ok (n, p)) := by
    simp only [encodeSome, h.packetPos, ← hn, hwrite, ok_bind, ne_eq, not_true_eq_false, if_false, hnow, hq, pure_eq_ok]
    rw [← tickTime_add hspec hcts0 j n]
  have hlen : (chunk ++ timed config.sampleSpec captureTs j (buffer.take n)).length = chunk.length + n := by
    rw [length_append, length_timed, length_take]
    omega
  have hfilling : Filling config q (chunk ++ timed config.sampleSpec captureTs j (buffer.take n)) data' := by
    subst hq
    refine ⟨h.inHand, by rw [hlen], hsize, by simpa using hencoded, ?_, hlen.symm, by rw [hlen]; omega⟩
    intro tick ht
    rw [map_append, mem_append, map_fst_timed] at ht
    exact ht.elim (h.whole tick) fun ht => hwhole tick (mem_of_mem_take ht)
  have hsent' : SentSoFar config q seqnum ts done := by subst hq; exact ⟨hsent.carries, hsent.seqnum, hsent.streamTs⟩
  have hdone' : done.length = q.sent.length * config.samplesPerPacket := by subst hq; exact hdone
  have hhead : (chunk ++ timed config.sampleSpec captureTs j (buffer.take n)).head?.map Prod.snd =
      some q.packetCts := by
    rw [← take_append_drop n buffer, timed_append, ← append_assoc, List.head?_append_of_ne_nil] at hcts
    · rw [hcts, hq]
    · exact ne_nil_of_length_pos (by omega)
  have hnext : q.captureTs = tickTime config.sampleSpec captureTs (j + n) := by rw [hq]
  refine ⟨n, ?_⟩
  by_cases hfull : q.packetPos = config.samplesPerPacket
  · obtain ⟨p', hend, hsent'', hpacket, hencoder, hcapture, hcount⟩ := endPacket_spec hsent' hfilling hhead
    refine ⟨p', by rw [hcode, endIfFull, if_pos hfull, hend, ok_bind], by omega, by omega, ?_, ?_⟩
    · rw [hcapture, hnext]
    · rw [append_assoc]
      refine .idle hsent'' ?_ hpacket hencoder
      rw [length_append, hdone', ← hfilling.packetPos, hfull, hcount, succ_mul]
  · refine ⟨q, by rw [hcode, endIfFull, if_neg hfull, ok_bind], by omega, by omega, hnext, ?_⟩
    rw [append_assoc]
    refine .filling hsent' hdone' hfilling ?_ hhead
    rw [hfilling.packetPos] at hfull
    exact lt_of_le_of_ne hfilling.le hfull

theorem ensurePacket_spec (hsupplied : Supplied config) {stream : List (TimedTick σ)}
    (h : Holds config p seqnum ts stream) {j : Nat}
    (hbuffer : buffer ≠ []) (hnow : p.captureTs = tickTime config.sampleSpec captureTs j) :
    ∃ p' done chunk data, p.ensurePacket config = .ok (true, p') ∧ stream = done ++ chunk ∧
      SentSoFar config p' seqnum ts done ∧ done.length = p'.sent.length * config.samplesPerPacket ∧
      Filling config p' chunk data ∧
      chunk.length < config.samplesPerPacket ∧ p'.captureTs = p.captureTs ∧
      (chunk ++ timed config.sampleSpec captureTs j buffer).head?.map Prod.snd = some p'.packetCts := by
  cases h with
  | idle hsent hfull hpacket hencoder =>
    obtain ⟨payload, hnew, hsize⟩ := hsupplied p.created
    have hbegin : p.ensurePacket config = .ok (true,
        { p with
          created := p.created + 1
          packet := true
          packetPos := 0
          packetCts := p.captureTs
          encoder := { frameData := some payload } }) := by
      simp [ensurePacket, hpacket, beginPacket, hnew, hencoder, PcmEncoder.begin]
    refine ⟨_, stream, [], payload, hbegin, (append_nil _).symm, ⟨hsent.carries, hsent.seqnum, hsent.streamTs⟩, hfull,
      ⟨rfl, by simp, hsize, fun i hi => absurd hi (not_lt_zero i), by simp, rfl, zero_le _⟩,
      config.samplesPerPacket_pos, rfl, ?_⟩
    rw [nil_append, head?_timed _ _ _ hbuffer, hnow]
  | filling hsent hfull hfilling hlt hcts =>
    rename_i done chunk data
    refine ⟨p, done, chunk, data, by rw [ensurePacket, hfilling.inHand]; rfl, rfl, hsent, hfull, hfilling, hlt, rfl, ?_⟩
    rw [List.head?_append_of_ne_nil, hcts]
    rintro rfl
    cases hcts

section
variable (hspec : config.sampleSpec.Linear) (hsupplied : Supplied config)
include hspec hsupplied

theorem writeLoop_spec {captureTs : Int}
    (hcts : 0 ≤ captureTs) : ∀ {fuel : Nat} {p : Packetizer} {j : Nat} {stream : List (TimedTick σ)}
      {buffer : List (Tick σ)}, buffer.length < fuel → Holds config p seqnum ts stream →
      (∀ tick ∈ buffer, tick.length = config.channels) →
      p.captureTs = tickTime config.sampleSpec captureTs j →
      ∃ p', writeLoop config fuel p buffer = .ok p' ∧
        Holds config p' seqnum ts (stream ++ timed config.sampleSpec captureTs j buffer) := by
  intro fuel
  induction fuel with
  | zero => intro p j stream buffer hfuel _ _ _; exact absurd hfuel (not_lt_zero _)
  | succ fuel ih =>
    intro p j stream buffer hfuel h hwhole hnow
    by_cases hempty : buffer = []
    · subst hempty
      exact ⟨p, rfl, by simpa [timed] using h⟩
    · obtain ⟨p1, done, chunk, data, hensure, rfl, hsent, hfull, hfilling, hlt, hcapture, hhead⟩ :=
        ensurePacket_spec hsupplied h hempty hnow
      obtain ⟨n, p2, hencode, hpos, hle, hnow', h'⟩ :=
        encodeSome_spec hspec hcts hwhole hempty hsent hfull hfilling hlt (hcapture.trans hnow) hhead
      have hshorter : (buffer.drop n).length < fuel := by rw [length_drop]; omega
      obtain ⟨p', hloop, hend⟩ := ih hshorter h' (fun tick ht => hwhole tick (mem_of_mem_drop ht)) hnow'
      refine ⟨p', ?_, ?_⟩
      · have hlength : buffer.length ≠ 0 := by rwa [ne_eq, length_eq_zero_iff]
        simp only [writeLoop, hlength, if_false, hensure, ok_bind, Bool.not_true, Bool.false_eq_true, hencode, hloop]
      · have hsplit := timed_append config.sampleSpec captureTs j (buffer.take n) (buffer.drop n)
        rw [take_append_drop, length_take, min_eq_left hle] at hsplit
        rw [hsplit, ← append_assoc]
        exact hend

theorem writeAll_spec :
    ∀ {frames : List (InFrame σ config.channels)} {p : Packetizer} {stream : List (TimedTick σ)},
      (∀ frame ∈ frames, 0 ≤ frame.captureTs) → Holds config p seqnum ts stream →
      ∃ p', writeAll config frames p = .ok p' ∧
        Holds config p' seqnum ts (stream ++ written config.sampleSpec frames) := by
  intro frames
  induction frames with
  | nil => intro p stream _ h; exact ⟨p, rfl, by simpa [written] using h⟩
  | cons frame rest ih =>
    intro p stream hcts h
    have hzero : config.sampleSpec.samplesPerChanToNs 0 = config.sampleSpec.samplesPerChanToNs 0 +
        config.sampleSpec.samplesPerChanToNs 0 := hspec.add 0 0
    have hstart : Holds config { p with captureTs := frame.captureTs } seqnum ts stream := by
      cases h with
      | idle hsent hfull hpacket hencoder =>
        exact .idle ⟨hsent.carries, hsent.seqnum, hsent.streamTs⟩ hfull hpacket hencoder
      | filling hsent hfull hfilling hlt hcts =>
        obtain ⟨h1, h2, h3, h4, h5, h6, h7⟩ := hfilling
        exact .filling ⟨hsent.carries, hsent.seqnum, hsent.streamTs⟩ hfull ⟨h1, h2, h3, h4, h5, h6, h7⟩ hlt hcts
    obtain ⟨p1, hwrite, h1⟩ := writeLoop_spec hspec hsupplied (hcts frame mem_cons_self)
      (lt_succ_self frame.ticks.length) (j := 0) hstart frame.whole (by
        simp only [tickTime]
        split
        · assumption
        · omega)
    obtain ⟨p', hall, h'⟩ := ih (forall_mem_cons.mp hcts).2 h1
    refine ⟨p', ?_, ?_⟩
    · simp only [writeAll, write, hwrite, ok_bind, hall]
    · rw [written, flatMap_cons, ← append_assoc]
      exact h'

theorem send_spec (frames : List (InFrame σ config.channels)) (hcts : ∀ frame ∈ frames, 0 ≤ frame.captureTs)
    (sequencer : Sequencer) :
    ∃ sent, send config frames sequencer = .ok sent ∧
      Carries config.codec config.channels config.samplesPerPacket sequencer.seqnum sequencer.streamTs sent
        (written config.sampleSpec frames) ∧
      sent.length * config.samplesPerPacket < (written config.sampleSpec frames).length + config.samplesPerPacket := by
  have hpos := config.samplesPerPacket_pos
  have hstart : Holds config { sequencer } sequencer.seqnum sequencer.streamTs [] :=
    .idle ⟨.nil, by simp, by simp⟩ (by simp) rfl rfl
  obtain ⟨p, hall, h⟩ := writeAll_spec hspec hsupplied hcts hstart
  rw [nil_append] at h
  generalize written config.sampleSpec frames = stream at h ⊢
  cases h with
  | idle hsent hfull hpacket _ =>
    refine ⟨p.sent, ?_, hsent.carries, by omega⟩
    simp only [send, hall, ok_bind, flush, hpacket, Bool.false_eq_true, if_false, pure_eq_ok]
  | filling hsent hfull hfilling hlt hcts =>
    rename_i done chunk data
    obtain ⟨p', hend, hsent', -, -, -, hcount⟩ := endPacket_spec hsent hfilling hcts
    have hchunk : 0 < chunk.length := by
      refine length_pos_iff.mpr ?_
      rintro rfl
      cases hcts
    refine ⟨p'.sent, ?_, by simpa using hsent'.carries, ?_⟩
    · simp only [send, hall, ok_bind, flush, hfilling.inHand, if_true, hend, pure_eq_ok]
    · rw [hcount, succ_mul, length_append]
      omega

end
end Packetizer

/-! ## Playing the packets back -/

namespace Depacketizer

variable {σ : Type} {codec : PcmCodec σ}

inductive Consecutive (format : PcmFormat σ) (channels : Nat) : StreamTimestamp → List (Option PcmPacket) → Prop
  | nil {ts : StreamTimestamp} : Consecutive format channels ts []
  | cons {ts : StreamTimestamp} {packet : PcmPacket} {rest : List (Option PcmPacket)}
      (hts : packet.streamTimestamp = ts) (hpos : 0 < ticksOf format channels packet)
      (hle : ticksOf format channels packet ≤ 2 ^ 31)
      (hrest : Consecutive format channels (ts + BitVec.ofNat 32 (ticksOf format channels packet)) rest) :
      Consecutive format channels ts (some packet :: rest)

section
variable {format : PcmFormat σ} {channels : Nat} {streamTs : StreamTimestamp} {packet : PcmPacket}
  {rest reader left : List (Option PcmPacket)} {found : Option PcmPacket} {dec : PcmDecoder} {firstPacket : Bool}

theorem not_late_of_at (hts : packet.streamTimestamp = streamTs) (hpos : 0 < ticksOf format channels packet)
    (hle : ticksOf format channels packet ≤ 2 ^ 31) : ¬ Late format channels streamTs packet := by
  rw [Late, Bool.not_eq_false, streamTimestampLt_iff, hts]
  bv_omega

theorem Consecutive.fetchable (h : Consecutive format channels streamTs reader) :
    Fetchable format channels streamTs reader := by
  cases h with
  | nil => trivial
  | cons hts hpos hle hrest =>
    refine ⟨fun hhalf => ?_, fun hlate => absurd hlate (not_late_of_at hts hpos hle)⟩
    have := hhalf.1
    rw [hts] at this
    bv_omega

theorem Consecutive.fetched {ts : StreamTimestamp} (h : Consecutive format channels ts reader)
    (hts : firstPacket = true ∨ ts = streamTs)
    (hfetched : Fetched format channels firstPacket streamTs reader found left dec) :
    (found = none ∧ left = []) ∨ ∃ packet, found = some packet ∧ packet.streamTimestamp = ts ∧
      Consecutive format channels (ts + BitVec.ofNat 32 (ticksOf format channels packet)) left := by
  cases hfetched with
  | none _ _ => exact .inl ⟨rfl, rfl⟩
  | noData _ => cases h
  | found _ _ =>
    cases h with
    | cons hat _ _ hrest => exact .inr ⟨_, rfl, hat, hrest⟩
  | dropped hfirst hlate _ =>
    cases h with
    | cons hat hpos hle _ =>
      rw [hts.resolve_left (by simp [hfirst])] at hat
      exact absurd hlate (not_late_of_at hat hpos hle)

end

inductive Ready (d : Depacketizer σ) : Prop
  | waiting {ts : StreamTimestamp} (hwait : d.Waiting) (hreader : Consecutive d.format d.channels ts d.reader)
      (hts : d.firstPacket = true ∨ ts = d.streamTs)
  | playing {packet : PcmPacket} {k : Nat} (hplaying : d.Playing packet k 0) (hreader : Consecutive d.format d.channels
        (packet.streamTimestamp + BitVec.ofNat 32 (ticksOf d.format d.channels packet)) d.reader)

section
variable {size : Nat} {d d' : Depacketizer σ} {info info' : FrameInfo} {out : List (Tick σ)} {packet : PcmPacket}
  {ts : StreamTimestamp} {firstPacket : Bool}

theorem Ready.inv (h : d.Ready) : d.Inv := by
  cases h with
  | waiting hwait _ _ => exact .inl hwait
  | playing hplaying _ => exact .inr ⟨_, _, _, hplaying⟩

theorem Ready.safe (h : d.Ready) : d.Safe := by
  intro hnone hfirst
  cases h with
  | waiting _ hreader hts =>
    rw [← hts.resolve_left (by simp [hfirst])]
    exact hreader.fetchable
  | playing hplaying _ => rw [hplaying.inHand] at hnone; cases hnone

theorem gapBefore_self (hts : packet.streamTimestamp = ts) : gapBefore firstPacket ts packet = 0 := by
  simp [gapBefore, hts]

theorem skipped_self (hts : packet.streamTimestamp = ts) : skipped firstPacket ts packet = 0 := by
  simp [skipped, hts]

theorem Ready.fetched (h : d.Ready) (hwait : d.Waiting) {found : Option PcmPacket}
    {left : List (Option PcmPacket)} {dec : PcmDecoder}
    (hfetched : Fetched d.format d.channels d.firstPacket d.streamTs d.reader found left dec) :
    (found = none ∧ left = []) ∨ ∃ packet, found = some packet ∧
      gapBefore d.firstPacket d.streamTs packet = 0 ∧ Consecutive d.format d.channels
        (packet.streamTimestamp + BitVec.ofNat 32 (ticksOf d.format d.channels packet)) left := by
  cases h with
  | playing hplaying _ => have := hwait.inHand.symm.trans hplaying.inHand; cases this
  | waiting _ hreader hts =>
    obtain hnone | ⟨packet, hfound, rfl, hleft⟩ := hreader.fetched hts hfetched
    · exact .inl hnone
    · refine .inr ⟨packet, hfound, ?_, hleft⟩
      obtain hfirst | hself := hts
      · simp [gapBefore, hfirst]
      · exact gapBefore_self hself

theorem Step.ready (h : Step size d info out d' info') (hready : d.Ready) : d'.Ready := by
  cases h with
  | fetch _ hwait _ hfetched hplaying =>
    obtain ⟨hfound, -⟩ | ⟨packet, hfound, hgap, hleft⟩ := hready.fetched hwait hfetched
    · cases hfound
    · cases hfound
      rw [hgap] at hplaying
      exact .playing hplaying hleft
  | gap hplaying _ hgap _ =>
    cases hready with
    | waiting hwait _ _ => have := hwait.inHand.symm.trans hplaying.inHand; cases this
    | playing hplaying' _ =>
      obtain ⟨-, -, rfl⟩ := hplaying'.unique hplaying
      exact absurd hgap (lt_irrefl 0)
  | play hplaying _ _ _ hdec =>
    cases hready with
    | waiting hwait _ _ => have := hwait.inHand.symm.trans hplaying.inHand; cases this
    | playing hplaying' hreader =>
      obtain ⟨rfl, -, -⟩ := hplaying'.unique hplaying
      refine .playing (hplaying.played hdec) ?_
      rw [played, advanceCapture_eq]
      exact hreader
  | finish hplaying hroom hm hdec =>
    rename_i packet k m decoder
    cases hready with
    | waiting hwait _ _ => have := hwait.inHand.symm.trans hplaying.inHand; cases this
    | playing hplaying' hreader =>
      obtain ⟨rfl, -, -⟩ := hplaying'.unique hplaying
      have hahead := hplaying.ahead
      have hend : packet.streamTimestamp + BitVec.ofNat 32 (ticksOf d.format d.channels packet) =
          d.streamTs + BitVec.ofNat 32 m := by
        rw [← hm, BitVec.ofNat_add]
        bv_omega
      have hwait := Waiting.played (d := d) hdec m
      rw [played, advanceCapture_eq] at *
      exact .waiting hwait hreader (.inr hend)
  | rest _ hwait _ hfetched hdec _ =>
    obtain ⟨-, rfl⟩ | ⟨packet, hfound, -, -⟩ := hready.fetched hwait hfetched
    · refine .waiting ?_ ?_ (.inr rfl)
      · rw [readMissingSamples_eq, advanceCapture_eq]; exact ⟨hwait.inHand, hdec⟩
      · rw [readMissingSamples_eq, advanceCapture_eq]; exact .nil
    · cases hfound

theorem Steps.ready (h : Steps size d info out d' info') (hready : d.Ready) : d'.Ready := by
  induction h with
  | refl => exact hready
  | cons hstep _ ih => exact ih (hstep.ready hready)

theorem Ready.safeLoop : ∀ {fuel : Nat} {d : Depacketizer σ} {info : FrameInfo}, d.Ready →
    SafeLoop size fuel d info := by
  intro fuel
  induction fuel with
  | zero => intro d info _; trivial
  | succ fuel ih =>
    intro d info h hroom
    refine ⟨h.safe, fun out d' info' hread => ?_⟩
    obtain ⟨_, _, _, hread', hsteps, -⟩ := readSamples_steps h.inv h.safe hroom
    rw [hread] at hread'
    cases hread'
    exact ih (hsteps.ready h)

theorem Ready.readFrames : ∀ {sizes : List Nat} {d : Depacketizer σ}, d.Ready →
    (∀ size ∈ sizes, size % 4294967296 ≠ 0) → ∃ frames d', Depacketizer.readFrames sizes d = .ok (frames, d') := by
  intro sizes
  induction sizes with
  | nil => intro d _ _; exact ⟨[], d, rfl⟩
  | cons size rest ih =>
    intro d h hsizes
    obtain ⟨hsize, hrest⟩ := List.forall_mem_cons.mp hsizes
    have hsafe : d.SafeFrame size := ⟨hsize, h.safeLoop⟩
    obtain ⟨out, d1, info, hread, hsteps, -⟩ := readFrame_steps h.inv hsafe
    obtain ⟨frames, d', hframes⟩ := ih (hsteps.ready h) hrest
    exact ⟨frameOf out info size :: frames, d', by simp only [Depacketizer.readFrames, hread, hframes, ok_bind, pure_eq_ok]⟩

end

def readerOf (sent : List RtpPacket) : List (Option PcmPacket) := sent.map fun packet => some packet.packet

section
variable {channels limit : Nat} {seqnum : BitVec 16} {ts : StreamTimestamp} {sent : List RtpPacket}
  {packet : RtpPacket} {chunk stream : List (TimedTick σ)}

theorem ticksOf_carried (hc : 0 < channels) (h : Carried codec channels packet chunk)
    (hlt : chunk.length < 2 ^ 32) : ticksOf codec.toPcmFormat channels packet.packet = chunk.length := by
  rw [ticksOf, PcmDecoder.total, h.size, codec.numTicks_encodedByteCount hc, mod_eq_of_lt hlt]

variable {origin : Depacketizer σ}

theorem ticksFrom_carried (hformat : origin.format = codec.toPcmFormat)
    (h : Carried codec origin.channels packet chunk) :
    origin.ticksFrom packet.packet 0 chunk.length = chunk.map Prod.fst := by
  refine ext_getElem (by simp) fun i _ hi => ?_
  rw [← h.encoded.tick codec h.whole i hi]
  simp [ticksFrom, hformat]

theorem consecutive_of_carries (hc : 0 < channels) (hlimit : limit ≤ 2 ^ 31)
    (h : Carries codec channels limit seqnum ts sent stream) :
    Consecutive codec.toPcmFormat channels ts (readerOf sent) := by
  induction h with
  | nil => exact .nil
  | cons _ hts hle hpacket _ ih =>
    have hticks := ticksOf_carried hc hpacket (by omega)
    have hpos := length_pos_iff.mpr hpacket.ne_nil
    refine .cons hts (by rw [hticks]; exact hpos) (by rw [hticks]; omega) ?_
    rw [hticks]
    exact ih

theorem streamFrom_of_carries (hformat : origin.format = codec.toPcmFormat) (hlimit : limit ≤ 2 ^ 31)
    (h : Carries codec origin.channels limit seqnum ts sent stream) (firstPacket : Bool)
    (streamTs : StreamTimestamp) (hts : firstPacket = true ∨ streamTs = ts) :
    origin.streamFrom firstPacket streamTs (readerOf sent) =
      stream.map Prod.fst ++ₛ Stream'.const (origin.fillerTick 0) := by
  induction h generalizing firstPacket streamTs with
  | nil => rfl
  | cons hseqnum hat hle hpacket hrest ih =>
    rename_i packet rest chunk stream
    have hticks : ticksOf origin.format origin.channels packet.packet = chunk.length := by
      rw [hformat]
      exact ticksOf_carried origin.sampleSpec.numChannels_pos hpacket (by omega)
    have hpos := length_pos_iff.mpr hpacket.ne_nil
    have hself : firstPacket = true ∨ packet.packet.streamTimestamp = streamTs :=
      hts.imp id fun heq => hat.trans heq.symm
    have hgap : gapBefore firstPacket streamTs packet.packet = 0 := by
      obtain hfirst | hself := hself
      · simp [gapBefore, hfirst]
      · exact gapBefore_self hself
    have hskip : skipped firstPacket streamTs packet.packet = 0 := by
      obtain hfirst | hself := hself
      · simp [skipped, hfirst]
      · exact skipped_self hself
    have hnot : ¬ (firstPacket = false ∧ Late origin.format origin.channels streamTs packet.packet) := by
      rintro ⟨hfirst, hlate⟩
      exact not_late_of_at (hself.resolve_left (by simp [hfirst])) (by rw [hticks]; exact hpos)
        (by rw [hticks]; omega) hlate
    rw [readerOf, map_cons, streamFrom, if_neg hnot, hgap, hskip, hticks, Nat.sub_zero,
      ticksFrom_carried hformat hpacket, hat, map_append, Stream'.append_append_stream]
    simp only [replicate_zero, Stream'.nil_append_stream]
    rw [← ih false _ (.inr rfl)]
    rfl

end

def silentTick (filler : Filler σ) (channels : Nat) : Tick σ := List.replicate channels filler.zero

theorem fillerTick_init (format : PcmFormat σ) (filler : Filler σ) (sampleSpec : SampleSpec)
    (reader : List (Option PcmPacket)) :
    (init format filler sampleSpec false reader).fillerTick 0 = silentTick filler sampleSpec.numChannels := by
  simp [fillerTick, init, silentTick, channels, map_const']

end Depacketizer

open Depacketizer in
/-- Frames that are written to a packetizer arrive in packets with consecutive sequence numbers and timestamps,
each with the capture time of its first tick; a depacketizer that reads these packets, in frames of any durations,
returns the ticks that were written and then silence. -/
theorem depacketize_packetize {σ : Type} (config : PacketizerConfig σ) (filler : Filler σ)
    (hsize : config.samplesPerPacket ≤ 2 ^ 31) (hsupplied : Packetizer.Supplied config)
    (hspec : config.sampleSpec.Linear) (frames : List (InFrame σ config.channels))
    (hcts : ∀ frame ∈ frames, 0 ≤ frame.captureTs) (sequencer : Sequencer) :
    ∃ sent, Packetizer.send config frames sequencer = .ok sent ∧
      Carries config.codec config.channels config.samplesPerPacket sequencer.seqnum sequencer.streamTs sent
        (written config.sampleSpec frames) ∧
      ∀ sizes : List Nat, (∀ size ∈ sizes, size % 4294967296 ≠ 0) → ∃ outFrames d,
        readFrames sizes (init config.codec.toPcmFormat filler config.sampleSpec false (readerOf sent)) =
            .ok (outFrames, d) ∧
          output outFrames = ((written config.sampleSpec frames).map Prod.fst ++ₛ
            Stream'.const (silentTick filler config.channels)).take sizes.sum := by
  obtain ⟨sent, hsend, hcarries, -⟩ := Packetizer.send_spec hspec hsupplied frames hcts sequencer
  refine ⟨sent, hsend, hcarries, fun sizes hsizes => ?_⟩
  have hready : (init config.codec.toPcmFormat filler config.sampleSpec false (readerOf sent)).Ready :=
    .waiting (init_waiting ..) (consecutive_of_carries config.sampleSpec.numChannels_pos hsize hcarries) (.inl rfl)
  obtain ⟨outFrames, d, hread⟩ := hready.readFrames hsizes
  refine ⟨outFrames, d, hread, ?_⟩
  have hall : none ∉ (init config.codec.toPcmFormat filler config.sampleSpec false (readerOf sent)).reader := by
    simp [init, readerOf]
  have hstream := streamFrom_of_carries
    (show (init config.codec.toPcmFormat filler config.sampleSpec false (readerOf sent)).format = _ from rfl)
    hsize hcarries true 0 (.inl rfl)
  rw [fillerTick_init] at hstream
  exact (readFrames_upcoming (steady_of_zeros _ _ _ _) hread hready.inv (.refl _) hall
    (.waiting (init_waiting ..))).trans (congrArg (Stream'.take sizes.sum) hstream)

/-! ## Packets that are too long -/

def pcm8Codec : PcmCodec UInt8 where
  toPcmFormat := Depacketizer.pcm8
  pack data off v := data.set (off / 8) v
  length_pack := by simp
  unpack_pack := by
    intro data off v hoff
    simp only [Depacketizer.pcm8] at *
    rw [List.getD_eq_getElem?_getD, List.getElem?_set_self (by omega)]
    rfl
  unpack_pack_of_disjoint := by
    intro data off off' v hdisjoint
    simp only [Depacketizer.pcm8] at *
    rw [List.getD_eq_getElem?_getD, List.getD_eq_getElem?_getD, List.getElem?_set_ne (by omega)]
  unpack_take := by
    intro data n off hoff
    simp only [Depacketizer.pcm8] at *
    rw [List.getD_eq_getElem?_getD, List.getD_eq_getElem?_getD, List.getElem?_take_of_lt (by omega)]

/-- Packets of `n + 1` ticks; the buffers come with zeros in them. -/
def monoConfig (n : Nat) : PacketizerConfig UInt8 where
  codec := pcm8Codec
  sampleSpec := Depacketizer.monoSpec
  samplesPerPacket := n + 1
  samplesPerPacket_pos := Nat.succ_pos n
  newPacket _ := some (List.replicate (pcm8Codec.encodedByteCount 1 (n + 1)) 0)

theorem monoConfig_supplied (n : Nat) : Packetizer.Supplied (monoConfig n) := fun _ => ⟨_, rfl, length_replicate⟩

theorem monoSpec_linear : Depacketizer.monoSpec.Linear := ⟨fun a b => cast_add a b, fun n => Int.natCast_nonneg n⟩

def longFrame (n : Nat) : InFrame UInt8 (monoConfig n).channels where
  ticks := List.replicate (n + 1 + (n + 1)) [7]
  whole tick ht := by rw [List.eq_of_mem_replicate ht]; rfl
  captureTs := 0

theorem Carries.two {σ : Type} {codec : PcmCodec σ} {channels limit : Nat} {seqnum : BitVec 16}
    {ts : StreamTimestamp} {sent : List RtpPacket} {stream : List (TimedTick σ)}
    (h : Carries codec channels limit seqnum ts sent stream) (hpos : 0 < limit)
    (hlength : stream.length = limit + limit) (hcount : sent.length * limit < stream.length + limit) :
    ∃ first second a b, sent = [first, second] ∧ stream = a ++ b ∧ a.length = limit ∧ b.length = limit ∧
      Carried codec channels first a ∧ Carried codec channels second b ∧
      first.packet.streamTimestamp = ts ∧
      second.packet.streamTimestamp = ts + BitVec.ofNat 32 limit := by
  have htwo : sent.length < 3 := Nat.lt_of_mul_lt_mul_right (a := limit) (by omega)
  cases h with
  | nil => simp at hlength; omega
  | cons _ hts hle hpacket hrest =>
    rw [length_append] at hlength
    cases hrest with
    | nil => simp at hlength; omega
    | cons _ hts' hle' hpacket' hrest' =>
      rw [length_append] at hlength
      cases hrest' with
      | nil =>
        simp only [length_nil, Nat.add_zero] at hlength
        refine ⟨_, _, _, _, rfl, by rw [append_nil], by omega, by omega, hpacket, hpacket', hts, ?_⟩
        rw [hts']
        congr 2
        omega
      | cons _ _ _ _ _ => simp only [length_cons] at htwo; omega

open Depacketizer in
theorem streamFrom_long {σ : Type} {codec : PcmCodec σ} {origin : Depacketizer σ} {first second : RtpPacket}
    {a b : List (TimedTick σ)} (hformat : origin.format = codec.toPcmFormat)
    (hfirst : Carried codec origin.channels first a) (hsecond : Carried codec origin.channels second b)
    (ha : a.length < 2 ^ 32) (hlo : 2 ^ 31 < b.length) (hhi : b.length < 2 ^ 32)
    (hts : second.packet.streamTimestamp = first.packet.streamTimestamp + BitVec.ofNat 32 a.length)
    (streamTs : StreamTimestamp) :
    origin.streamFrom true streamTs (readerOf [first, second]) =
      a.map Prod.fst ++ₛ Stream'.const (origin.fillerTick 0) := by
  have hc : 0 < origin.channels := origin.sampleSpec.numChannels_pos
  have hticks1 : ticksOf origin.format origin.channels first.packet = a.length := by
    rw [hformat]; exact ticksOf_carried hc hfirst ha
  have hticks2 : ticksOf origin.format origin.channels second.packet = b.length := by
    rw [hformat]; exact ticksOf_carried hc hsecond hhi
  have hlate : Late origin.format origin.channels
      (first.packet.streamTimestamp + BitVec.ofNat 32 a.length) second.packet := by
    rw [Late, hticks2, hts, ← Bool.not_eq_true, streamTimestampLt_iff]
    bv_omega
  have hskip : skipped true streamTs first.packet = 0 := by simp [skipped]
  have hgap : gapBefore true streamTs first.packet = 0 := by simp [gapBefore]
  simp only [readerOf, map_cons, map_nil]
  rw [streamFrom, if_neg (by simp), hskip, hgap, hticks1, Nat.sub_zero, ticksFrom_carried hformat hfirst, streamFrom,
    if_pos ⟨rfl, hlate⟩]
  rfl

open Depacketizer in
theorem second_packet_lost {n : Nat} (hlo : 2 ^ 31 < n + 1) (hhi : n + 1 < 2 ^ 32) :
    ∃ sent, Packetizer.send (monoConfig n) [longFrame n] ⟨0, 0⟩ = .ok sent ∧
      ∀ outFrames d, readFrames [n + 1, 1] (init pcm8 sawtooth monoSpec false (readerOf sent)) =
        .ok (outFrames, d) → output outFrames = List.replicate (n + 1) [7] ++ [[0]] := by
  obtain ⟨sent, hsend, hcarries, hcount⟩ := Packetizer.send_spec monoSpec_linear (monoConfig_supplied n)
    [longFrame n] (fun _ h => by cases mem_singleton.mp h; exact Int.le_refl 0) ⟨0, 0⟩
  refine ⟨sent, hsend, fun outFrames d hread => ?_⟩
  have hwritten : (written (monoConfig n).sampleSpec [longFrame n]).map Prod.fst =
      List.replicate (n + 1 + (n + 1)) [7] := by
    simp [written, longFrame]
  have hlength : (written (monoConfig n).sampleSpec [longFrame n]).length = n + 1 + (n + 1) := by
    have := congrArg List.length hwritten
    simpa using this
  have hlimit : (monoConfig n).samplesPerPacket = n + 1 := rfl
  obtain ⟨first, second, a, b, rfl, hstream, ha, hb, hfirst, hsecond, hts1, hts2⟩ :=
    hcarries.two (succ_pos n) hlength hcount
  rw [hlimit] at ha hb
  rw [hstream, map_append, replicate_add] at hwritten
  have hticks : a.map Prod.fst = List.replicate (n + 1) [7] :=
    append_inj_left hwritten (by rw [length_map, ha, length_replicate])
  have hupcoming := streamFrom_long
    (show (init pcm8 sawtooth monoSpec false (readerOf [first, second])).format = pcm8Codec.toPcmFormat from rfl)
    hfirst hsecond (by omega) (by omega) (by omega) (by rw [hts2, hts1, ha]; rfl) 0
  have hall : none ∉ (init pcm8 sawtooth monoSpec false (readerOf [first, second])).reader := by
    simp [init, readerOf]
  have houtput := (readFrames_upcoming (steady_of_zeros _ _ _ _) hread (init_inv ..) (.refl _) hall
    (.waiting (init_waiting ..))).trans (congrArg (Stream'.take _) hupcoming)
  rw [houtput, fillerTick_init, hticks, sum_cons, sum_singleton]
  have htake := Stream'.append_take (x := List.replicate (n + 1) [(7 : UInt8)])
    (a := Stream'.const (silentTick sawtooth monoSpec.numChannels)) (n := 1)
  rw [length_replicate] at htake
  rw [← htake]
  rfl

theorem take_written_longFrame (n : Nat) :
    ((written (monoConfig n).sampleSpec [longFrame n]).map Prod.fst ++ₛ Stream'.const [0]).take (n + 1 + 1) =
      List.replicate (n + 1) [7] ++ [[7]] := by
  have hwritten : (written (monoConfig n).sampleSpec [longFrame n]).map Prod.fst =
      List.replicate (n + 1 + (n + 1)) [7] := by
    simp [written, longFrame]
  rw [hwritten]
  refine (Stream'.take_append_of_le_length _ _ _ (by rw [length_replicate]; omega)).trans ?_
  rw [take_replicate, min_eq_left (by omega), ← replicate_succ']

open Depacketizer in
/-- With packets of `2 ^ 31 + 256` ticks, the least number above `2 ^ 31` that the conversion in `float` gives, the first
tick of the second packet is lost. -/
theorem longFrame_not_played :
    (∃ sent, Packetizer.send (monoConfig (2 ^ 31 + 255)) [longFrame (2 ^ 31 + 255)] ⟨0, 0⟩ = .ok sent) ∧
      ¬ ∃ sent outFrames d, Packetizer.send (monoConfig (2 ^ 31 + 255)) [longFrame (2 ^ 31 + 255)] ⟨0, 0⟩ = .ok sent ∧
        readFrames [2 ^ 31 + 256, 1] (init pcm8 sawtooth monoSpec false (readerOf sent)) = .ok (outFrames, d) ∧
        output outFrames = ((written monoSpec [longFrame (2 ^ 31 + 255)]).map Prod.fst ++ₛ
          Stream'.const [0]).take (2 ^ 31 + 256 + 1) := by
  obtain ⟨sent, hsend, hlost⟩ := second_packet_lost (n := 2 ^ 31 + 255) (by omega) (by omega)
  refine ⟨⟨sent, hsend⟩, ?_⟩
  rintro ⟨sent', outFrames, d, hsend', hread, houtput⟩
  rw [hsend] at hsend'
  cases hsend'
  have heq := (hlost outFrames d hread).symm.trans (houtput.trans (take_written_longFrame (2 ^ 31 + 255)))
  have := List.append_cancel_left heq
  simp at this

def sampleFrames : List (InFrame UInt8 (monoConfig 1).channels) :=
  [⟨[[1], [2], [3]], by decide, 100⟩, ⟨[[4]], by decide, 103⟩]

open Depacketizer in
/-- Sequence numbers and timestamps wrap around. -/
theorem depacketize_packetize_sampleFrames :
    ∃ sent, Packetizer.send (monoConfig 1) sampleFrames ⟨0xffff, 0xffffffff⟩ = .ok sent ∧
      Carries pcm8Codec 1 2 0xffff 0xffffffff sent (written monoSpec sampleFrames) ∧
      ∀ sizes : List Nat, (∀ size ∈ sizes, size % 4294967296 ≠ 0) → ∃ outFrames d,
        readFrames sizes (init pcm8 sawtooth monoSpec false (readerOf sent)) = .ok (outFrames, d) ∧
          output outFrames = ((written monoSpec sampleFrames).map Prod.fst ++ₛ
            Stream'.const (silentTick sawtooth 1)).take sizes.sum :=
  depacketize_packetize (monoConfig 1) sawtooth (by decide) (monoConfig_supplied 1) monoSpec_linear sampleFrames
    (by decide) ⟨0xffff, 0xffffffff⟩

end Roc.Audio
