import RocToolkit.Rtcp.Encode

/-!
# RocToolkit.Rtcp.RoundTrip

The traversers read back what the builder writes. `Described.bytes` is laid out in the way the
traversers walk: the packets are a chain, so are the blocks of an XR packet, and chunks, items, SSRCs
and the reason are found one by one. With `run_bytes` this gives the round trip.
-/

namespace Roc.Rtcp

open List

open Roc.Core (Slice)
open Builder (Call itemBytes reasonBytes)

open Described XrTraverser PacketHeader Codec Traverser.Iterator

/-! ## Headers -/

theorem rtcpLengthToSize_lenField {n : Nat} (h4 : 4 ≤ n) (hle : n ≤ 65532) (hmod : n % 4 = 0) :
    rtcpLengthToSize (lenField n) = n := by
  unfold rtcpLengthToSize lenField
  have : (UInt16.ofNat (n / 4 - 1)).toNat = n / 4 - 1 := by
    simp only [UInt16.toNat_ofNat']
    omega
  omega

namespace Described

variable {d : Described}

theorem WellFormed.lenBytes (h : d.WellFormed) : d.header.lenBytes = d.size :=
  rtcpLengthToSize_lenField (Nat.le_add_right _ _) h.size_le h.size_mod

theorem WellFormed.header_facts (h : d.WellFormed) :
    d.header.counter = d.count ∧ d.header.version = V2 ∧ d.header.hasPadding = false := by
  obtain ⟨h1, h2, h3, -⟩ := countByte_facts ⟨d.count, by have := h.count_le; omega⟩ d.type (lenField d.size)
  exact ⟨h1, h2, h3⟩

theorem bytes_length (d : Described) : d.bytes.length = d.size := by
  rw [bytes, length_append, codec.encode_length, codec_width, size]

def stopsIn : Described → Traverser.State
  | .sr _ _ => .sr
  | .rr _ _ => .rr
  | .sdes _ => .sdes
  | .bye _ _ => .bye
  | .xr _ _ => .xr

end Described

/-! ## Sub-packets are laid out -/

theorem encode_drop_length {α : Type} (c : Codec α) (a : α) (n : Nat) : ((c.encode a).drop n).length = c.width - n := by
  rw [length_drop, c.encode_length]

variable {p : Nat} {slice : Slice} {d : Described}

theorem stopState_described {buf : Slice} (h : d.WellFormed) (hhas : buf.Has p d.bytes) :
    Traverser.stopState buf p d.header = some d.stopsIn := by
  obtain ⟨hcnt, -, hpad⟩ := h.header_facts
  have hpeek : buf.peek codec p = d.header := hhas.left.peek
  have hok : ∀ fixed, fixed + d.count * 24 ≤ d.size → Traverser.ReportOk buf p d.header fixed := by
    intro fixed hfit
    refine ⟨by rw [hpad]; simp, ?_⟩
    have hpad0 : Traverser.padding buf p d.header = 0 := by simp [Traverser.padding, hpad]
    have hst : Traverser.reportStart p d.header = p := by simp [Traverser.reportStart, hpad]
    rw [hpad0, hst, hpeek, hcnt, h.lenBytes]
    exact hfit
  unfold Traverser.stopState
  cases d with
  | sr q bs =>
    have ht : (Described.sr q bs).header.type = RTCP_SR := rfl
    rw [if_pos ht, if_pos]
    · rfl
    · refine hok 28 ?_
      simp only [Described.count, Described.size, Described.body, length_append,
        encodeAll_length, encode_drop_length, SenderReportPacket.codec_width,
        ReceptionReportBlock.codec_width]
      omega
  | rr q bs =>
    have hne : (Described.rr q bs).header.type ≠ RTCP_SR := by
      show RTCP_RR ≠ RTCP_SR
      decide
    have ht : (Described.rr q bs).header.type = RTCP_RR := rfl
    rw [if_neg hne, if_pos ht, if_pos]
    · rfl
    · refine hok 8 ?_
      simp only [Described.count, Described.size, Described.body, length_append,
        encodeAll_length, encode_drop_length, ReceiverReportPacket.codec_width,
        ReceptionReportBlock.codec_width]
      omega
  | sdes cs => rfl
  | bye ssrcs r => rfl
  | xr q bs => rfl

theorem packets_laidOut {bytes : List UInt8} : ∀ (ds : List Described) (pre : List UInt8), (∀ d ∈ ds, d.WellFormed) →
      bytes = pre ++ ds.flatMap Described.bytes →
      (Traverser.chain (Slice.ofBuffer bytes)).LaidOut Described.size
        (fun p d => (Slice.ofBuffer bytes).Has p d.bytes) pre.length ds := by
  intro ds
  induction ds with
  | nil =>
    rintro pre - rfl
    refine ⟨by simp, Traverser.chain_len_none fun hd => ?_⟩
    have := hd.1
    simp at this
  | cons d ds ih =>
    intro pre hwf hbytes
    have hd := hwf d (by simp)
    have hhas : (Slice.ofBuffer bytes).Has pre.length d.bytes := by
      rw [hbytes, flatMap_cons]
      exact (Slice.has_ofBuffer pre _).left
    have hpeek : (Slice.ofBuffer bytes).peek codec pre.length = d.header := hhas.left.peek
    have hsize : pre.length + d.size ≤ bytes.length := by
      rw [hbytes, flatMap_cons, length_append, length_append, d.bytes_length]
      omega
    have h4 : 4 ≤ d.size := Nat.le_add_right _ _
    have hdel : Traverser.Delimited (Slice.ofBuffer bytes) pre.length := by
      refine ⟨?_, ?_, ?_⟩
      · simp only [codec_width, Slice.ofBuffer_size]
        omega
      · rw [hpeek]; exact hd.header_facts.2.1
      · rw [hpeek, hd.lenBytes]; exact hsize
    refine ⟨?_, Traverser.chain_stop d.stopsIn ?_, hhas, ?_⟩
    · rw [Traverser.chain_len hdel, hpeek, hd.lenBytes]
    · rw [hpeek]; exact stopState_described hd hhas
    · have := ih (pre ++ d.bytes) (fun x hx => hwf x (by simp [hx])) (by rw [hbytes, flatMap_cons, append_assoc])
      rwa [length_append, d.bytes_length] at this

/-! ## SR and RR -/

section
variable {it : Traverser.Iterator} {p : Nat} {d : Described}

section
variable (hwf : d.WellFormed) (hs : Traverser.StoppedAt it p d.header) (hhas : it.buf.Has p d.bytes)
include hwf hs hhas

theorem slice_has : it.curPktSlice.Has 0 d.bytes ∧ it.curPktSlice.size = d.size := by
  have hpad := hwf.header_facts.2.2
  have hoff : it.curPktSlice.off = it.buf.off + p := by
    rw [hs.slice_off]
    simp [Traverser.reportStart, hpad]
  have hsize : it.curPktSlice.size = d.size := by
    rw [hs.slice_size, hwf.lenBytes]
    simp [Traverser.padding, hpad]
  refine ⟨?_, hsize⟩
  obtain ⟨rest, hr⟩ := hhas
  exact ⟨rest, by rw [hs.slice_buf, hoff, Nat.add_zero, hr]⟩

theorem stops_as : it.state = d.stopsIn := by
  have := hs.state
  rw [stopState_described hwf hhas] at this
  exact (Option.some.inj this).symm

end

theorem peek_report {α : Type} {codec : Codec α} {head : α} {slice : Slice} (header : α → PacketHeader)
    (hslice : slice.Has 0 (codec.encode head ++ ReceptionReportBlock.codec.encodeAll bs))
    (hheader : slice.peek PacketHeader.codec 0 = header (slice.peek codec 0))
    (hcount : (header head).counter = bs.length) :
    slice.peek codec 0 = head ∧
      (List.range (slice.peek PacketHeader.codec 0).counter).map (fun i =>
        slice.peek ReceptionReportBlock.codec (codec.width + i * 24)) = bs := by
  have hpkt := hslice.left.peek
  have hblk := hslice.right.peekAll
  rw [codec.encode_length, Nat.zero_add] at hblk
  exact ⟨hpkt, by rw [hheader, hpkt, hcount]; exact hblk⟩

theorem readPacket_described_sr {q : SenderReportPacket} (hwf : (sr q bs).WellFormed)
    (hs : Traverser.StoppedAt it p (sr q bs).header) (hhas : it.buf.Has p (sr q bs).bytes) :
    it.readPacket = .ok (sr q bs).decoded := by
  have hslice := (slice_has hwf hs hhas).1
  rw [bytes, body, ← append_assoc, ← sr_encode] at hslice
  obtain ⟨hpkt, hblk⟩ := peek_report SenderReportPacket.header hslice rfl hwf.header_facts.1
  rw [readPacket_sr hs (stops_as hwf hs hhas), hpkt]
  exact congrArg (fun l => Except.ok (Packet.sr _ l)) hblk

theorem readPacket_described_rr {q : ReceiverReportPacket} (hwf : (rr q bs).WellFormed)
    (hs : Traverser.StoppedAt it p (rr q bs).header) (hhas : it.buf.Has p (rr q bs).bytes) :
    it.readPacket = .ok (rr q bs).decoded := by
  have hslice := (slice_has hwf hs hhas).1
  rw [bytes, body, ← append_assoc, ← rr_encode] at hslice
  obtain ⟨hpkt, hblk⟩ := peek_report ReceiverReportPacket.header hslice rfl hwf.header_facts.1
  rw [readPacket_rr hs (stops_as hwf hs hhas), hpkt]
  exact congrArg (fun l => Except.ok (Packet.rr _ l)) hblk

end

/-! ## XR -/

namespace XrBlock

def size : XrBlock → Nat
  | .rrtr _ => 12
  | .dlrr _ rs => 4 + rs.length * 12
  | .measurementInfo _ => 32
  | .delayMetrics _ => 28
  | .queueMetrics _ => 16

def stopsIn : XrBlock → XrTraverser.State
  | .rrtr _ => .rrtr
  | .dlrr _ _ => .dlrr
  | .measurementInfo _ => .measurementInfo
  | .delayMetrics _ => .delayMetrics
  | .queueMetrics _ => .queueMetrics

def header : XrBlock → XrBlockHeader
  | .rrtr b => b.header.filled 12
  | .dlrr b rs => b.header.filled (4 + rs.length * 12)
  | .measurementInfo b => b.header.filled 32
  | .delayMetrics b => b.header.filled 28
  | .queueMetrics b => b.header.filled 16

theorem bytes_length (b : XrBlock) : b.bytes.length = b.size := by
  cases b with
  | dlrr b rs =>
    show (XrDlrrBlock.codec.encode _ ++ XrDlrrSubblock.codec.encodeAll rs).length = _
    rw [length_append, encodeAll_length, XrDlrrBlock.codec.encode_length]
    rfl
  | rrtr b => exact XrRrtrBlock.codec.encode_length _
  | measurementInfo b => exact XrMeasurementInfoBlock.codec.encode_length _
  | delayMetrics b => exact XrDelayMetricsBlock.codec.encode_length _
  | queueMetrics b => exact XrQueueMetricsBlock.codec.encode_length _

theorem bytes_header (b : XrBlock) : ∃ rest, b.bytes = XrBlockHeader.codec.encode b.header ++ rest := by
  cases b <;> exact ⟨_, rfl⟩

theorem Fine.lenBytes {b : XrBlock} (h : b.Fine) : b.header.lenBytes = b.size := by
  cases b with
  | dlrr b rs => exact rtcpLengthToSize_lenField (by omega) h.2 (by omega)
  | rrtr b => rfl
  | measurementInfo b => rfl
  | delayMetrics b => rfl
  | queueMetrics b => rfl

theorem Fine.stopState {b : XrBlock} (h : b.Fine) : XrTraverser.stopState b.header = some b.stopsIn := by
  have hlen := h.lenBytes
  unfold XrTraverser.stopState
  have hkind : XrTraverser.kind b.header = some b.stopsIn := by
    cases b with
    | rrtr b => simp only [Fine] at h; simp [header, XrBlockHeader.filled, h]; rfl
    | dlrr b rs => simp only [Fine] at h; simp [header, XrBlockHeader.filled, h.1]; rfl
    | measurementInfo b | delayMetrics b => simp only [Fine] at h; simp [header, XrBlockHeader.filled, h]; rfl
    | queueMetrics b => simp only [Fine] at h; simp [header, XrBlockHeader.filled, h]; rfl
  have hvalid : XrTraverser.validLen b.header b.stopsIn = true := by
    cases b with
    | dlrr b rs =>
      simp only [size] at hlen
      simp only [stopsIn, XrTraverser.validLen, XrDlrrBlock.numSubblocks, hlen]
      simp
    | _ => simp only [size] at hlen; simp [stopsIn, XrTraverser.validLen, hlen]
  rw [hkind, Option.filter_some, if_pos hvalid]

end XrBlock

theorem blocks_laidOut : ∀ (bs : List XrBlock) (p : Nat), (∀ b ∈ bs, b.Fine) → slice.Has p (bs.flatMap XrBlock.bytes) →
    p + (bs.flatMap XrBlock.bytes).length = slice.size →
    (chain slice).LaidOut XrBlock.size (fun q b => slice.Has q b.bytes) p bs := by
  intro bs
  induction bs with
  | nil =>
    intro p _ _ hsize
    refine ⟨hsize, chain_len_none fun hd => ?_⟩
    have := hd.1
    simp at this hsize
    omega
  | cons b bs ih =>
    intro p hfine hhas hsize
    rw [flatMap_cons] at hhas hsize
    rw [length_append, b.bytes_length] at hsize
    have hb := hfine b (by simp)
    obtain ⟨rest, hrest⟩ := b.bytes_header
    have hpeek : slice.peek XrBlockHeader.codec p = b.header := by
      have := hhas.left
      rw [hrest] at this
      exact this.left.peek
    have hlen : p + b.header.lenBytes ≤ slice.size := by rw [hb.lenBytes]; omega
    have hdel : XrTraverser.Delimited slice p := by
      have := b.header.lenBytes_ge
      refine ⟨?_, by rw [hpeek]; exact hlen⟩
      rw [XrBlockHeader.codec_width]
      omega
    refine ⟨?_, ?_, hhas.left, ?_⟩
    · rw [chain_len hdel, hpeek, hb.lenBytes]
    · show (stopState (slice.peek XrBlockHeader.codec p)).isSome = true
      rw [hpeek, hb.stopState]
      rfl
    · refine ih _ (fun x hx => hfine x (by simp [hx])) ?_ (by omega)
      have := hhas.right
      rwa [b.bytes_length] at this

theorem blockAt_described {b : XrBlock} (hb : b.Fine)
    (hhas : slice.Has p b.bytes) : blockAt slice p b.stopsIn = some b.filled := by
  cases b with
  | rrtr b => exact congrArg (fun x => some (XrBlock.rrtr x)) hhas.peek
  | measurementInfo b => exact congrArg (fun x => some (XrBlock.measurementInfo x)) hhas.peek
  | delayMetrics b => exact congrArg (fun x => some (XrBlock.delayMetrics x)) hhas.peek
  | queueMetrics b => exact congrArg (fun x => some (XrBlock.queueMetrics x)) hhas.peek
  | dlrr b rs =>
    have hpeek := hhas.left.peek
    have hall := hhas.right.peekAll
    have hnum : (slice.peek XrDlrrBlock.codec p).numSubblocks = rs.length := by
      have hlen : (b.header.filled (4 + rs.length * 12)).lenBytes = 4 + rs.length * 12 := hb.lenBytes
      rw [hpeek]
      simp [XrDlrrBlock.numSubblocks, hlen]
    rw [XrDlrrBlock.codec.encode_length] at hall
    simp only [XrBlock.stopsIn, blockAt, hnum]
    rw [hpeek]
    exact congrArg (fun x => some (XrBlock.dlrr _ x)) hall

theorem readBlock_described {it : XrTraverser.Iterator} {b : XrBlock} (hb : b.Fine)
    (hs : XrTraverser.StoppedAt it p (it.buf.peek XrBlockHeader.codec p))
    (hhas : it.buf.Has p b.bytes) : it.readBlock = .ok b.filled := by
  obtain ⟨rest, hrest⟩ := b.bytes_header
  have hpeek : it.buf.peek XrBlockHeader.codec p = b.header := by
    have := hhas
    rw [hrest] at this
    exact this.left.peek
  have hst := hs.state
  rw [hpeek, hb.stopState] at hst
  obtain ⟨b', hat, hread⟩ := readBlock_ok hs
  rw [← Option.some.inj hst, blockAt_described hb hhas] at hat
  rw [hread, Option.some.inj hat]

theorem decodeXr_described {q : XrPacket} {bs : List XrBlock}
    (hwf : (xr q bs).WellFormed) (hhas : slice.Has 0 (xr q bs).bytes) (hsize : slice.size = (xr q bs).size) :
    decodeXr slice = .ok (some ({ q with header := (xr q bs).header }, bs.map XrBlock.filled, false)) := by
  have hsplit : (xr q bs).bytes = XrPacket.codec.encode { q with header := (xr q bs).header } ++
        bs.flatMap XrBlock.bytes := by
    rw [xr_encode, append_assoc]
    rfl
  have htotal : slice.size = 8 + (bs.flatMap XrBlock.bytes).length := by
    rw [hsize, ← bytes_length, hsplit, length_append, XrPacket.codec.encode_length]
    rfl
  have h8 : 8 ≤ slice.size := by omega
  have hparse : parsePacket slice XrPacket.codec.width RTCP_XR false = .ok (some ((xr q bs).header, slice)) :=
    parsePacket_plain (Nat.le_of_ble_eq_true rfl) hhas.left.peek (hwf.lenBytes.trans hsize.symm) h8 hwf.header_facts.2.2
  obtain ⟨l, last, hwalk, hwalked⟩ := walk_spec h8
  rw [hsplit] at hhas
  have hlaid := blocks_laidOut bs 8 hwf.fine hhas.right htotal.symm
  have hblocks : l.mapM XrTraverser.Iterator.readBlock = .ok (bs.map XrBlock.filled) := by
    refine hwalked.mapM hlaid ?_
    rintro it p b hb rfl hat hp
    exact readBlock_described (hwf.fine b hb) hat hp
  have herr : last.error = false := hwalked.err_eq.trans hlaid.ends.1
  have hpkt : slice.read XrPacket.codec 0 = .ok { q with header := (xr q bs).header } := by
    rw [Slice.read_ok h8, hhas.left.peek]
  simp only [decodeXr, parse, hparse, ok_bind, hwalk, pure_eq_ok, hblocks, packet, hpkt, herr]

/-! ## SDES -/

theorem textAt_described {t : CString} (hhas : slice.Has p t.bytes) : textAt slice p t.length = t := by
  obtain ⟨rest, hr⟩ := hhas
  rw [textAt, hr, CString.length, take_left, CString.ofBuffer_bytes]

theorem toNat_ofNat_length {t : CString} (h : t.length ≤ 255) : (UInt8.ofNat t.length).toNat = t.length := by
  simp only [UInt8.toNat_ofNat']
  omega

namespace SdesTraverser

/-- What remains to be read after a call of `next` that returned `r`, to the end without error. -/
def Reads (r : Except Fault Iterator) (es : List SdesElement) : Prop :=
  Loop.Yields Iterator.next (fun it => it.state == .end_) Iterator.readElement (fun it => it.error = false) r es

theorem skipPadding_to {size pos stop : Nat} (hlt : pos < stop) (hle : stop ≤ size)
    (hmod : stop % 4 = 0) (h4 : stop ≤ pos + 4) : skipPadding size pos = .ok stop := by
  obtain ⟨pos', hp, rfl⟩ : ∃ pos', skipPadding size pos = .ok pos' ∧ pos' = stop := by
    refine Loop.repeatUntil_total (I := fun p => pos ≤ p ∧ p < stop) (Q := fun p => p = stop)
      (μ := fun p => size - p) ?_ _ pos ⟨Nat.le_refl _, hlt⟩ (by omega)
    rintro p ⟨hpos, hstop⟩
    by_cases hc : p + 1 < size ∧ (p + 1) % 4 ≠ 0
    · exact .inr ⟨p + 1, by simp [hc], ⟨by omega, by omega⟩, by omega⟩
    · exact .inl ⟨p + 1, by simp only [if_neg hc], by omega⟩
  exact hp

section
variable {it : Iterator}

theorem nextItem_zero (hlt : it.curPos < it.buf.size) (hzero : it.buf.peek u8 it.curPos = 0)
    {stop : Nat} (hpos : it.curPos < stop) (hle : stop ≤ it.buf.size) (hmod : stop % 4 = 0)
    (h4 : stop ≤ it.curPos + 4) : it.nextItem = (it.endChunk stop).nextChunk := by
  unfold Iterator.nextItem
  rw [if_neg (by omega), Slice.read_ok (by show _ + 1 ≤ _; omega), hzero]
  simp only [ok_bind, if_true]
  rw [skipPadding_to hpos hle hmod h4]
  rfl

theorem nextItem_described {i : SdesItem} (hi : i.Fine) (hhas : it.buf.Has it.curPos (itemBytes i))
    (hfit : it.curPos + (2 + i.text.length) ≤ it.buf.size) :
    it.nextItem = .ok { it with curItemLen := 2 + i.text.length, parsedItemText := i.text,
                                parsedItemType := i.type } := by
  have hlen := toNat_ofNat_length hi.2
  have hpeek := hhas.left.peek
  have htype : it.buf.peek u8 it.curPos = i.type := congrArg SdesItemHeader.type hpeek
  have htext : textAt it.buf (it.curPos + 2) i.text.length = i.text := textAt_described hhas.right
  unfold Iterator.nextItem
  rw [if_neg (by omega), Slice.read_ok (by show _ + 1 ≤ _; omega), htype]
  simp only [ok_bind]
  rw [if_neg hi.1, if_neg (by rw [SdesItemHeader.codec_width]; omega),
    Slice.read_ok (by rw [SdesItemHeader.codec_width]; omega), hpeek]
  simp only [ok_bind, hlen, SdesItemHeader.codec_width]
  rw [if_neg (by omega), parseItem_ok { it with curItemLen := 2 + i.text.length } hpeek (by rw [hlen]; exact hfit)]
  simp only [hlen, htext]

theorem reads_items (stop : Nat) {n : Nat} {es : List SdesElement} (hn : 1 ≤ n) (hn4 : n ≤ 4)
    (hmod : stop % 4 = 0) : ∀ (is : List SdesItem) (it : Iterator), it.state = .item →
      (∀ i ∈ is, i.Fine) → it.buf.Has it.curPos (is.flatMap itemBytes ++ List.replicate n 0) →
      it.curPos + (is.flatMap itemBytes).length + n = stop → stop ≤ it.buf.size →
      (∀ it' : Iterator, it'.buf = it.buf → it'.chunksCount = it.chunksCount →
        it'.error = it.error → it'.curChunk = it.curChunk →
        Reads (it'.endChunk stop).nextChunk es) →
      Reads it.nextItem (is.map SdesElement.item ++ es) := by
  intro is
  induction is with
  | nil =>
    intro it _ _ hhas hstop hle hrest
    simp only [flatMap_nil, length_nil, nil_append] at hhas hstop
    have hzero : it.buf.peek u8 it.curPos = 0 := by
      obtain ⟨m, rfl⟩ : ∃ m, n = m + 1 := ⟨n - 1, by omega⟩
      rw [replicate_succ, ← singleton_append] at hhas
      exact hhas.left.peek (c := u8)
    rw [nextItem_zero (by omega) hzero (by omega) hle hmod (by omega)]
    exact hrest it rfl rfl rfl rfl
  | cons i is ih =>
    intro it hst hfine hhas hstop hle hrest
    have hilen : (itemBytes i).length = 2 + i.text.length := by
      rw [itemBytes, length_append, SdesItemHeader.codec.encode_length]
      rfl
    rw [flatMap_cons, append_assoc] at hhas
    rw [flatMap_cons, length_append, hilen] at hstop
    rw [nextItem_described (hfine i (by simp)) hhas.left (by omega)]
    refine .more (by simp [hst]) (readElement_item hst) ?_
    rw [next_item]
    · refine ih _ hst (fun x hx => hfine x (by simp [hx])) ?_ ?_ hle hrest
      · have := hhas.right
        rwa [hilen] at this
      · show it.curPos + (2 + i.text.length) + _ + n = stop
        omega
    · exact hst

theorem reads_chunks : ∀ (cs : List (SdesChunk × List SdesItem)) (it : Iterator),
    (it.state = .begin_ ∨ it.state = .chunk) → it.error = false →
    it.curChunk + cs.length = it.chunksCount → (∀ c ∈ cs, ∀ i ∈ c.2, i.Fine) →
    it.buf.Has it.curPos (cs.flatMap chunkBytes) →
    it.curPos + (cs.flatMap chunkBytes).length ≤ it.buf.size → it.curPos % 4 = 0 →
    Reads it.nextChunk (cs.flatMap fun c => .chunk c.1 :: c.2.map .item) := by
  intro cs
  induction cs with
  | nil =>
    intro it hst herr hcount _ _ _ _
    have hend : it.nextChunk = .ok { it with state := .end_ } := by
      unfold Iterator.nextChunk
      rw [if_pos hst, if_pos (show it.curChunk = it.chunksCount from hcount)]
    rw [hend]
    exact .finish rfl herr
  | cons c cs ih =>
    intro it hst herr hcount hfine hhas hfit hmod
    obtain ⟨c, is⟩ := c
    rw [flatMap_cons] at hhas hfit
    rw [length_append] at hfit
    have hcmod := chunkBytes_length_mod (c, is)
    have hbytes : chunkBytes (c, is) = be32.encode c.ssrc ++ (is.flatMap itemBytes ++
        List.replicate (paddingLen (openChunkBytes (c, is)).length 1) 0) := by
      rw [chunkBytes, openChunkBytes, append_assoc]
    have hclen : (chunkBytes (c, is)).length = 4 + (is.flatMap itemBytes).length +
        paddingLen (openChunkBytes (c, is)).length 1 := by
      rw [hbytes, length_append, length_append, length_replicate, be32.encode_length, ← Nat.add_assoc]
      rfl
    have hnext := hhas.right
    replace hhas := hhas.left
    rw [hbytes] at hhas
    have hchunk : it.nextChunk = .ok { it with state := .chunk, parsedSsrc := c.ssrc } := by
      unfold Iterator.nextChunk
      rw [if_pos hst, if_neg (by rw [← hcount]; simp), if_neg (by show ¬ _ + 4 > _; omega),
        parseChunk_ok { it with state := .chunk } (by show it.curPos + 4 ≤ it.buf.size; omega)]
      simp only [hhas.left.peek]
    rw [hchunk]
    refine .more rfl (readElement_chunk rfl) ?_
    rw [next_chunk rfl]
    refine reads_items (it.curPos + (chunkBytes (c, is)).length)
      (n := paddingLen (openChunkBytes (c, is)).length 1) ?_ ?_ (by omega) is _ rfl
      (hfine (c, is) (by simp)) hhas.right ?_ ?_ ?_
    · simp only [paddingLen]; omega
    · simp only [paddingLen]; split <;> omega
    · show it.curPos + 4 + _ + _ = _
      omega
    · show _ ≤ it.buf.size
      omega
    · rintro it' hb hc he hk
      refine ih _ (.inr rfl) (he.trans herr) ?_ (fun x hx => hfine x (by simp [hx])) ?_ ?_ ?_
      · show it'.curChunk + 1 + cs.length = it'.chunksCount
        rw [hk, hc]
        show it.curChunk + 1 + cs.length = it.chunksCount
        rw [← hcount, length_cons]
        omega
      · show it'.buf.Has _ _
        rw [hb]
        exact hnext
      · show _ + _ + _ ≤ it'.buf.size
        rw [hb]
        show _ + _ + _ ≤ it.buf.size
        omega
      · show (_ + _) % 4 = 0
        omega

end

end SdesTraverser

theorem decodeSdes_described {cs : List (SdesChunk × List SdesItem)}
    (hwf : (sdes cs).WellFormed) (hhas : slice.Has 0 (sdes cs).bytes) (hsize : slice.size = (sdes cs).size) :
    decodeSdes slice = .ok (some (cs.flatMap fun c => .chunk c.1 :: c.2.map .item, false)) := by
  have htotal : slice.size = 4 + (cs.flatMap chunkBytes).length := hsize
  have h4 : 4 ≤ slice.size := by omega
  have hparse : parsePacket slice codec.width RTCP_SDES true = .ok (some ((sdes cs).header, slice)) :=
    parsePacket_plain (Nat.le_refl _) hhas.left.peek (hwf.lenBytes.trans hsize.symm) h4 hwf.header_facts.2.2
  obtain ⟨l, last, hwalk, -, -⟩ := SdesTraverser.walk_spec ⟨slice, (sdes cs).header.counter⟩ h4
  have hreads : SdesTraverser.Reads (SdesTraverser.iter ⟨slice, (sdes cs).header.counter⟩).next
      (cs.flatMap fun c => .chunk c.1 :: c.2.map .item) := by
    rw [SdesTraverser.next_begin rfl h4]
    refine SdesTraverser.reads_chunks cs _ (.inl rfl) rfl ?_ hwf.fine hhas.right htotal.ge
      (show (0 + 4) % 4 = 0 from rfl)
    show 0 + cs.length = (sdes cs).header.counter
    rw [hwf.header_facts.1, Nat.zero_add]
    rfl
  obtain ⟨hmap, herr⟩ := hreads.collect hwalk
  simp only [decodeSdes, SdesTraverser.parse, hparse, ok_bind, pure_eq_ok, hwalk, hmap, herr]

/-! ## BYE -/

namespace ByeTraverser

def Reads (r : Except Fault Iterator) (es : List ByeElement) : Prop :=
  Loop.Yields Iterator.next (fun it => it.state == .end_) Iterator.readElement (fun it => it.error = false) r es

section
variable {it : Iterator}

theorem nextReason_described {r : CString} (hr : r.length ≤ 255)
    (hhas : it.buf.Has it.curPos (reasonBytes r)) (hfit : it.curPos + 1 + r.length ≤ it.buf.size) :
    it.nextReason = .ok { it with state := .reason, parsedReason := r } := by
  have hlen := toNat_ofNat_length hr
  have hwidth : u8.width = 1 := rfl
  have hpeek : it.buf.peek u8 it.curPos = UInt8.ofNat r.length := hhas.left.peek
  have htext : textAt it.buf (it.curPos + 1) r.length = r := textAt_described hhas.right.left
  unfold Iterator.nextReason
  rw [if_pos (by omega), if_neg (by omega), Slice.read_ok (by omega), hpeek]
  simp only [ok_bind, hlen, hwidth]
  rw [if_neg (by omega), parseReason_ok { it with state := .reason } hpeek (by rw [hlen]; exact hfit)]
  simp only [hlen, htext]

theorem reads_reason (reason : Option CString) (herr : it.error = false) (hfine : ∀ r ∈ reason, r.length ≤ 255)
    (hhas : it.buf.Has it.curPos (reason.elim [] reasonBytes))
    (hsize : it.curPos + (reason.elim [] reasonBytes).length = it.buf.size) :
    Reads it.nextReason (reason.toList.map .reason) := by
  cases reason with
  | none =>
    have hend : it.nextReason = .ok { it with state := .end_ } := by
      unfold Iterator.nextReason
      rw [if_neg (by simp at hsize; omega)]
      rfl
    rw [hend]
    exact .finish rfl herr
  | some r =>
    have hlen : (reasonBytes r).length = 1 + (r.length + paddingLen (1 + r.length) 0) := by
      rw [reasonBytes, length_append, length_append, length_replicate]
      rfl
    rw [nextReason_described (hfine r rfl) hhas (by rw [Option.elim_some, hlen] at hsize; omega)]
    exact .more rfl (readElement_reason rfl) (.finish rfl herr)

theorem reads_ssrcs (reason : Option CString) (hfine : ∀ r ∈ reason, r.length ≤ 255) :
    ∀ (ssrcs : List UInt32) (it : Iterator), it.error = false → it.curSsrc + ssrcs.length = it.ssrcCount →
      it.buf.Has it.curPos (be32.encodeAll ssrcs ++ reason.elim [] reasonBytes) →
      it.curPos + (be32.encodeAll ssrcs ++ reason.elim [] reasonBytes).length = it.buf.size →
      Reads it.nextSsrc (ssrcs.map .ssrc ++ reason.toList.map .reason) := by
  intro ssrcs
  induction ssrcs with
  | nil =>
    intro it herr hcount hhas hsize
    have hlast : it.nextSsrc = it.nextReason := if_pos hcount
    rw [hlast]
    exact reads_reason reason herr hfine hhas hsize
  | cons ssrc ssrcs ih =>
    intro it herr hcount hhas hsize
    have hcons : be32.encodeAll (ssrc :: ssrcs) ++ reason.elim [] reasonBytes = be32.encode ssrc ++
          (be32.encodeAll ssrcs ++ reason.elim [] reasonBytes) := by
      rw [← append_assoc]
      rfl
    rw [hcons] at hhas hsize
    rw [length_append, be32.encode_length] at hsize
    have hwidth : be32.width = 4 := rfl
    have hnext : it.nextSsrc = .ok { it with state := .ssrc, parsedSsrc := ssrc } := by
      unfold Iterator.nextSsrc
      rw [if_neg (by rw [← hcount]; simp), if_neg (by omega),
        parseSsrc_ok { it with state := .ssrc } (by show it.curPos + 4 ≤ it.buf.size; omega)]
      simp only [hhas.left.peek]
    rw [hnext]
    refine .more rfl (readElement_ssrc rfl) ?_
    rw [next_ssrc rfl]
    refine ih _ herr ?_ hhas.right ?_
    · show it.curSsrc + 1 + ssrcs.length = it.ssrcCount
      rw [← hcount, length_cons]
      omega
    · show it.curPos + 4 + _ = it.buf.size
      omega

end

end ByeTraverser

theorem decodeBye_described {ssrcs : List UInt32} {reason : Option CString} (hwf : (bye ssrcs reason).WellFormed)
    (hhas : slice.Has 0 (bye ssrcs reason).bytes) (hsize : slice.size = (bye ssrcs reason).size) :
    decodeBye slice = .ok (some (ssrcs.map .ssrc ++ reason.toList.map .reason, false)) := by
  have htotal : slice.size = 4 + (be32.encodeAll ssrcs ++ reason.elim [] reasonBytes).length := hsize
  have h4 : 4 ≤ slice.size := by omega
  have hparse : parsePacket slice codec.width RTCP_BYE true = .ok (some ((bye ssrcs reason).header, slice)) :=
    parsePacket_plain (Nat.le_refl _) hhas.left.peek (hwf.lenBytes.trans hsize.symm) h4 hwf.header_facts.2.2
  obtain ⟨l, last, hwalk, -, -⟩ := ByeTraverser.walk_spec ⟨slice, (bye ssrcs reason).header.counter⟩ h4
  have hreads : ByeTraverser.Reads (ByeTraverser.iter ⟨slice, (bye ssrcs reason).header.counter⟩).next
      (ssrcs.map .ssrc ++ reason.toList.map .reason) := by
    rw [ByeTraverser.next_begin rfl h4]
    refine ByeTraverser.reads_ssrcs reason hwf.fine ssrcs _ rfl ?_ hhas.right htotal.symm
    show 0 + ssrcs.length = (bye ssrcs reason).header.counter
    rw [hwf.header_facts.1, Nat.zero_add]
    rfl
  obtain ⟨hmap, herr⟩ := hreads.collect hwalk
  simp only [decodeBye, ByeTraverser.parse, hparse, ok_bind, pure_eq_ok, hwalk, hmap, herr]

/-! ## Compound packets -/

theorem readPacket_described {it : Traverser.Iterator}
    (hwf : d.WellFormed) (hs : Traverser.StoppedAt it p (it.buf.peek codec p))
    (hhas : it.buf.Has p d.bytes) : it.readPacket = .ok d.decoded := by
  have hpeek : it.buf.peek codec p = d.header := hhas.left.peek
  rw [hpeek] at hs
  have hst := stops_as hwf hs hhas
  obtain ⟨hslice, hsize⟩ := slice_has hwf hs hhas
  cases d with
  | sr q bs => exact readPacket_described_sr hwf hs hhas
  | rr q bs => exact readPacket_described_rr hwf hs hhas
  | xr q bs =>
    have hst : it.state = .xr := hst
    unfold readPacket
    simp only [hst, Traverser.getSlice_ok hst, ok_bind, decodeXr_described hwf hslice hsize]
    rfl
  | sdes cs =>
    have hst : it.state = .sdes := hst
    unfold readPacket
    simp only [hst, Traverser.getSlice_ok hst, ok_bind, decodeSdes_described hwf hslice hsize]
    rfl
  | bye ssrcs reason =>
    have hst : it.state = .bye := hst
    unfold readPacket
    simp only [hst, Traverser.getSlice_ok hst, ok_bind, decodeBye_described hwf hslice hsize]
    rfl

theorem bytes_ge {ds : List Described} (h : ds.flatMap bytes ≠ []) : 4 ≤ (ds.flatMap bytes).length := by
  cases ds with
  | nil => exact absurd rfl h
  | cons d ds =>
    rw [flatMap_cons, length_append, d.bytes_length, size]
    omega

/-- What plain builder calls describe is what the traversers return, and the traversal ends with
the buffer. A builder that wrote nothing cannot be destroyed without a panic, so `hne` leaves out no
finished builder. -/
theorem round_trip {config : Config} {capacity : Nat} {calls : List Call} {b : Builder}
    (hplain : ∀ c ∈ calls, c.Plain) (hrun : (Builder.new config capacity).run calls = .ok b)
    (hok : b.isOk = true) (hne : b.result ≠ []) :
    decode (Slice.ofBuffer b.result) =
      .ok (some ((described calls).map Described.decoded, false)) ∧
    ∃ stops last, Traverser.traverse (Slice.ofBuffer b.result) = .ok (stops, last) ∧
      last.state = .end_ ∧ last.curPos = b.result.length := by
  have htrunc : b.truncated = false := by simpa [Builder.isOk] using hok
  obtain ⟨hbytes, hwf⟩ := run_bytes hplain hrun htrunc
  have h4 : 4 ≤ b.result.length := by
    rw [hbytes] at hne ⊢
    exact bytes_ge hne
  have hlaid := packets_laidOut (described calls) [] hwf hbytes
  obtain ⟨l, last, ht, hwalked⟩ := Traverser.traverse_spec (Slice.ofBuffer b.result)
  have hread : l.mapM Traverser.Iterator.readPacket =
      .ok ((described calls).map Described.decoded) := by
    refine hwalked.mapM hlaid ?_
    intro it p d hd hhome hat hhas
    have hhome : it.buf = Slice.ofBuffer b.result := hhome
    rw [← hhome] at hhas
    refine readPacket_described (hwf d hd) ?_ hhas
    rw [hhome]
    exact hat
  have herr : last.error = false := hwalked.err_eq.trans hlaid.ends.1
  refine ⟨?_, l, last, ht, hwalked.ended, hwalked.pos_eq.trans hlaid.ends.2⟩
  have hparse : Traverser.parse (Slice.ofBuffer b.result) = true := by
    exact (Bool.not_eq_true' _).mpr (decide_eq_false (Nat.not_lt.mpr h4))
  simp only [decode, hparse, ht, ok_bind, hread, herr]
  rfl

def sampleCalls : List Call := [.beginSr ⟨.reset RTCP_SR, 0x11223344, 1, 2, 3, 4⟩, .endSr,
   .beginXr ⟨.reset RTCP_XR, 0x11223344⟩, .addXrRrtr ⟨.reset XR_RRTR, 5⟩,
   .beginXrDlrr ⟨.reset XR_DLRR⟩, .addXrDlrrReport ⟨6, 7, 8⟩, .endXrDlrr, .endXr,
   .beginSdes, .beginSdesChunk ⟨0x11223344⟩, .addSdesItem ⟨SDES_CNAME, ⟨[0x61, 0x62], by decide⟩⟩,
   .endSdesChunk, .endSdes,
   .beginBye, .addByeSsrc 0x11223344, .addByeReason ⟨[0x62], by decide⟩, .endBye]

theorem round_trip_sample : ∃ b, (Builder.new {} 200).run sampleCalls = .ok b ∧
    decode (Slice.ofBuffer b.result) =
      .ok (some ((described sampleCalls).map Described.decoded, false)) := by
  have hrun : ((Builder.new {} 200).run sampleCalls).toOption.any
      (fun b => b.isOk && b.result.length == 92) = true := by decide +kernel
  cases h : (Builder.new {} 200).run sampleCalls with
  | error e => rw [h] at hrun; cases hrun
  | ok b =>
    rw [h] at hrun
    obtain ⟨hok, hlen⟩ : b.isOk = true ∧ b.result.length = 92 := by
      simpa [Except.toOption] using hrun
    have hne : b.result ≠ [] := by
      intro hnil
      rw [hnil] at hlen
      cases hlen
    exact ⟨b, rfl, (round_trip (by decide) h hok hne).1⟩

end Roc.Rtcp
