import RocToolkit.Rtcp.Decode

/-!
# RocToolkit.Rtcp.Locality

Where a report is read from. A read is checked against the slice it is made through, so what remains is where the slice
of a sub-packet lies. It lies inside the sub-packet unless `remove_padding_` has cut it: it cuts from the beginning of
the compound packet, so a padded SR or RR is read from its own bytes only if it is the first sub-packet.
-/

namespace Roc.Rtcp

open Roc.Core (Slice)

namespace Traverser

variable {it : Iterator} {p : Nat} {h : PacketHeader}

/-- Bytes `[i, i + n)` of the slice lie between the offsets `lo` and `hi` of the buffer under it. -/
def ReadsIn (s : Slice) (i n lo hi : Nat) : Prop := lo ≤ s.off + i ∧ s.off + i + n ≤ hi

instance (s : Slice) (i n lo hi : Nat) : Decidable (ReadsIn s i n lo hi) := inferInstanceAs (Decidable (_ ∧ _))

def ownHeader (it : Iterator) : PacketHeader := it.buf.peek PacketHeader.codec it.curPos

def ownBegin (it : Iterator) : Nat := it.buf.off + it.curPos

def ownEnd (it : Iterator) : Nat := ownBegin it + ((ownHeader it).lenBytes - padding it.buf it.curPos (ownHeader it))

def ownBytes (it : Iterator) : List UInt8 := (it.buf.buf.drop (ownBegin it)).take (ownEnd it - ownBegin it)

/-- Number of blocks in the header that `get_sr` or `get_rr` returns. -/
def numBlocks (it : Iterator) : Nat := (it.curPktSlice.peek PacketHeader.codec 0).counter

def fixedSize (it : Iterator) : Nat :=
  if it.state = .sr then SenderReportPacket.codec.width else ReceiverReportPacket.codec.width

/-- The header that `get_sr` or `get_rr` returns and every `get_block` of it are read from the bytes
of the sub-packet. -/
def ReadsOwnBytes (it : Iterator) : Prop := ReadsIn it.curPktSlice 0 (fixedSize it) (ownBegin it) (ownEnd it) ∧
    ∀ i < numBlocks it, ReadsIn it.curPktSlice (fixedSize it + i * 24) 24 (ownBegin it) (ownEnd it)

instance (it : Iterator) : Decidable (ReadsOwnBytes it) := inferInstanceAs (Decidable (_ ∧ _))

def ReturnsOwnBytes (it : Iterator) : Prop :=
  (it.state = .sr → it.getSr = .ok (SenderReportPacket.codec.decode (ownBytes it))) ∧
  (it.state = .rr → it.getRr = .ok (ReceiverReportPacket.codec.decode (ownBytes it))) ∧
  ∀ i < numBlocks it, (it.state = .sr → it.getSrBlock i =
      .ok (ReceptionReportBlock.codec.decode ((ownBytes it).drop (28 + i * 24)))) ∧
    (it.state = .rr → it.getRrBlock i = .ok (ReceptionReportBlock.codec.decode ((ownBytes it).drop (8 + i * 24))))

def InPlace (it : Iterator) : Prop := (ownHeader it).hasPadding = false ∨ it.curPos = 0

theorem StoppedAt.ownHeader_eq (hs : StoppedAt it p h) : ownHeader it = h := by
  rw [ownHeader, hs.pos, hs.header]

theorem StoppedAt.fixedSize_fits (hs : StoppedAt it p h) (hr : it.state = .sr ∨ it.state = .rr) :
    IsReport h ∧ fixedSize it + numBlocks it * 24 ≤ it.curPktSlice.size := by
  rcases stopState_cases hs.state with ⟨hst, ht, hok⟩ | ⟨hst, ht, hok⟩ | ⟨hst, -⟩
  · refine ⟨.inl ht, ?_⟩
    rw [fixedSize, if_pos hst]
    exact hs.report_fits hok (.inl ht)
  · refine ⟨.inr ht, ?_⟩
    rw [fixedSize, if_neg (by rw [hst]; simp)]
    exact hs.report_fits hok (.inr ht)
  · rcases hr with hr | hr <;> rw [hr] at hst <;> simp at hst

theorem fixedSize_pos (it : Iterator) : 0 < fixedSize it := by
  unfold fixedSize
  split <;> simp

theorem StoppedAt.report_slice (hs : StoppedAt it p h) (hr : IsReport h) :
    (InPlace it → it.curPktSlice.off = ownBegin it) ∧
    (¬ InPlace it → it.curPktSlice.off < ownBegin it) ∧
    it.curPktSlice.size = ownEnd it - ownBegin it := by
  have hoff := hs.slice_off
  have hsize := hs.slice_size
  rw [if_pos hr, reportStart] at hoff
  rw [if_pos hr] at hsize
  unfold InPlace ownEnd ownBegin
  rw [hs.ownHeader_eq, hs.pos]
  cases hp : h.hasPadding with
  | false =>
    rw [hp] at hoff
    refine ⟨fun _ => by simpa using hoff, by simp, by omega⟩
  | true =>
    rw [hp] at hoff
    simp only [if_true] at hoff
    refine ⟨fun hor => ?_, fun hne => ?_, by omega⟩
    · have hp0 : p = 0 := by simpa using hor
      omega
    · have hp0 : p ≠ 0 := by simpa using hne
      omega

section
variable (hs : StoppedAt it p h) (hr : it.state = .sr ∨ it.state = .rr)
include hs hr

theorem readsOwnBytes_iff : ReadsOwnBytes it ↔ InPlace it := by
  obtain ⟨hrep, hfit⟩ := hs.fixedSize_fits hr
  obtain ⟨hin, hout, hsize⟩ := hs.report_slice hrep
  have hpos := fixedSize_pos it
  constructor
  · intro hreads
    by_contra hne
    have := hout hne
    have := hreads.1.1
    omega
  · intro hplace
    have hoff := hin hplace
    refine ⟨⟨by omega, by omega⟩, fun i hi => ⟨by omega, ?_⟩⟩
    have : i * 24 + 24 ≤ numBlocks it * 24 := by omega
    omega

theorem returnsOwnBytes_of_inPlace (hplace : InPlace it) : ReturnsOwnBytes it := by
  obtain ⟨hrep, hfit⟩ := hs.fixedSize_fits hr
  obtain ⟨hin, -, hsize⟩ := hs.report_slice hrep
  have hbytes : it.curPktSlice.bytes = ownBytes it := by
    rw [Slice.bytes, hs.slice_buf, hin hplace, hsize, ownBytes]
  refine ⟨fun hst => ?_, fun hst => ?_, fun i hi => ⟨fun hst => ?_, fun hst => ?_⟩⟩
  · rw [fixedSize, if_pos hst] at hfit
    rw [(getSr_ok hs hst).1, Slice.peek_eq_bytes (by omega), List.drop_zero, hbytes]
  · rw [fixedSize, if_neg (by rw [hst]; simp)] at hfit
    rw [(getRr_ok hs hst).1, Slice.peek_eq_bytes (by omega), List.drop_zero, hbytes]
  · rw [fixedSize, if_pos hst, SenderReportPacket.codec_width] at hfit
    rw [(getSr_ok hs hst).2 i hi, Slice.peek_eq_bytes (by rw [ReceptionReportBlock.codec_width]; omega), hbytes]
  · rw [fixedSize, if_neg (by rw [hst]; simp), ReceiverReportPacket.codec_width] at hfit
    rw [(getRr_ok hs hst).2 i hi, Slice.peek_eq_bytes (by rw [ReceptionReportBlock.codec_width]; omega), hbytes]

end

/-- A reported SR or RR is read from its own bytes exactly if it is not padded or comes first; then
the getters return what these bytes encode. -/
theorem report_local_iff {buf : Slice} {l : List Iterator} {last : Iterator}
    (ht : traverse buf = .ok (l, last)) (hit : it ∈ l) (hr : it.state = .sr ∨ it.state = .rr) :
    (ReadsOwnBytes it ↔ (ownHeader it).hasPadding = false ∨ it.curPos = 0) ∧
      (ReadsOwnBytes it → ReturnsOwnBytes it) := by
  obtain ⟨l', last', ht', hwalk⟩ := traverse_spec buf
  rw [ht] at ht'
  cases ht'
  obtain ⟨p, -, hat⟩ := hwalk.at_of_mem it hit
  have hiff := readsOwnBytes_iff hat hr
  exact ⟨hiff, fun hreads => returnsOwnBytes_of_inPlace hat hr (hiff.mp hreads)⟩

/-- An RR from 0x11111111 without blocks, and an RR from 0x22222222 with four bytes of padding. -/
def paddedSecond : List UInt8 := [0x80, 201, 0, 1, 0x11, 0x11, 0x11, 0x11,
   0xA0, 201, 0, 2, 0x22, 0x22, 0x22, 0x22, 0, 0, 0, 4]

def atPaddedSecond : Iterator where
  state := .rr
  buf := Slice.ofBuffer paddedSecond
  curPos := 8
  curPktLen := 12
  curPktSlice := ⟨paddedSecond, 0, 8, by decide⟩
  error := false

theorem traverse_paddedSecond : traverse (Slice.ofBuffer paddedSecond) =
    .ok ([{ atPaddedSecond with curPos := 0, curPktLen := 8 }, atPaddedSecond],
      { atPaddedSecond with state := .end_, curPos := 20 }) := by
  decide +kernel

/-- The second report is reported with the header of the first. -/
theorem paddedSecond_misread : ∃ l last it, traverse (Slice.ofBuffer paddedSecond) = .ok (l, last) ∧
    it ∈ l ∧ it.state = .rr ∧ it.curPos = 8 ∧ ¬ ReadsOwnBytes it ∧
    it.getRr = .ok ⟨⟨0x80, 201, 1⟩, 0x11111111⟩ ∧
    ReceiverReportPacket.codec.decode (ownBytes it) = ⟨⟨0xA0, 201, 2⟩, 0x22222222⟩ :=
  ⟨_, _, atPaddedSecond, traverse_paddedSecond, by simp, rfl, rfl, by decide, rfl, rfl⟩

/-- An RR with one block and four bytes of padding, and an RR without blocks. -/
def paddedFirst : List UInt8 := [0xA1, 201, 0, 8, 0x22, 0x22, 0x22, 0x22] ++ List.replicate 24 7 ++ [0, 0, 0, 4,
   0x80, 201, 0, 1, 0x11, 0x11, 0x11, 0x11]

def atPaddedFirst : Iterator where
  state := .rr
  buf := Slice.ofBuffer paddedFirst
  curPos := 0
  curPktLen := 36
  curPktSlice := ⟨paddedFirst, 0, 32, by decide⟩
  error := false

theorem traverse_paddedFirst : ∃ l last, traverse (Slice.ofBuffer paddedFirst) = .ok (l, last) ∧ atPaddedFirst ∈ l := by
  refine ⟨_, _, rfl, ?_⟩
  decide +kernel

/-- A padded report that comes first is read from its own bytes, and its block is what they encode. -/
theorem report_local_iff_padded : (ownHeader atPaddedFirst).hasPadding = true ∧ numBlocks atPaddedFirst = 1 ∧
    ReadsOwnBytes atPaddedFirst ∧ ReturnsOwnBytes atPaddedFirst := by
  obtain ⟨l, last, ht, hmem⟩ := traverse_paddedFirst
  obtain ⟨hiff, hreturns⟩ := report_local_iff ht hmem (.inr rfl)
  have hreads := hiff.mpr (.inr rfl)
  exact ⟨rfl, rfl, hreads, hreturns hreads⟩

end Traverser

end Roc.Rtcp
