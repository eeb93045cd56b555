import RocToolkit.Lib.Loop
import RocToolkit.Rtcp.Headers

/-!
# RocToolkit.Rtcp.SdesTraverser

`rtcp::SdesTraverser`: chunks and items of an SDES packet. Unlike sub-packets and XR blocks, they do
not form a chain: a chunk ends at a zero item type or with the packet, and the next one begins at a
32-bit boundary. `Ok` is the invariant of the iterator; one call of `next` keeps it and goes forward.
-/

namespace Roc.Rtcp

open Roc.Core (Slice)

open SdesItemHeader

structure SdesTraverser where
  buf : Slice
  chunksCount : Nat
deriving DecidableEq, Repr

namespace SdesTraverser

inductive State where
  | begin_ | chunk | item | end_
deriving DecidableEq, Repr

/-- `cur_item_header_` points to the item at `curPos`. -/
structure Iterator where
  state : State
  buf : Slice
  chunksCount : Nat
  curPos : Nat
  curChunk : Nat
  curItemLen : Nat
  error : Bool
  parsedSsrc : UInt32
  parsedItemType : UInt8
  parsedItemText : CString
deriving DecidableEq, Repr

/-- `SdesTraverser::parse`. -/
def parse (buf : Slice) : Except Fault (Option SdesTraverser) := do
  match ← parsePacket buf PacketHeader.codec.width RTCP_SDES true with
  | none => return none
  | some (header, buf) => return some { buf, chunksCount := header.counter }

/-- `SdesTraverser::iter`. -/
def iter (sdes : SdesTraverser) : Iterator :=
  { state := .begin_, buf := sdes.buf, chunksCount := sdes.chunksCount, curPos := 0, curChunk := 0,
    curItemLen := 0, error := false, parsedSsrc := 0, parsedItemType := 0,
    parsedItemText := .empty }

def skipPadding (size pos : Nat) : Except Fault Nat := Loop.repeatUntil (fun pos => .ok
    (if pos + 1 < size ∧ (pos + 1) % 4 ≠ 0 then .again (pos + 1) else .leave (pos + 1)))
    .outOfFuel (size + 1) pos

namespace Iterator

def fail (it : Iterator) : Iterator := { it with error := true, state := .end_ }

/-- `parse_chunk_`. -/
def parseChunk (it : Iterator) : Except Fault Iterator := do
  let ssrc ← it.buf.read Codec.be32 it.curPos
  return { it with parsedSsrc := ssrc }

/-- `parse_item_`. -/
def parseItem (it : Iterator) : Except Fault Iterator := do
  let header ← it.buf.read SdesItemHeader.codec it.curPos
  let text ← readText it.buf (it.curPos + SdesItemHeader.codec.width) header.len.toNat
  return { it with parsedItemText := text, parsedItemType := header.type }

/-- The tail of `next_element_`: the next chunk, if there is one. -/
def nextChunk (it : Iterator) : Except Fault Iterator :=
  if it.state = .begin_ ∨ it.state = .chunk then
    if it.curChunk = it.chunksCount then .ok { it with state := .end_ }
    else if it.curPos + Codec.be32.width > it.buf.size then .ok it.fail
    else { it with state := .chunk }.parseChunk
  else .error (.panic "sdes traverser: impossible state")

/-- The last item of a chunk is behind, the next chunk begins at `pos`. -/
def endChunk (it : Iterator) (pos : Nat) : Iterator :=
  { it with curPos := pos, state := .chunk, curChunk := it.curChunk + 1 }

/-- The middle of `next_element_`: the next item, or the next chunk after the last one. -/
def nextItem (it : Iterator) : Except Fault Iterator := do
  if it.curPos = it.buf.size then
    (it.endChunk it.curPos).nextChunk
  else
    let type ← it.buf.read Codec.u8 it.curPos
    if type = 0 then
      let pos ← skipPadding it.buf.size it.curPos
      (it.endChunk pos).nextChunk
    else if it.curPos + SdesItemHeader.codec.width > it.buf.size then
      return it.fail
    else
      let header ← it.buf.read SdesItemHeader.codec it.curPos
      let it := { it with curItemLen := SdesItemHeader.codec.width + header.len.toNat }
      if it.curPos + it.curItemLen > it.buf.size then
        return it.fail
      it.parseItem

/-- `next`. -/
def next (it : Iterator) : Except Fault Iterator :=
  match it.state with
  | .end_ => .ok it
  | .begin_ =>
    let it := { it with curPos := it.curPos + PacketHeader.codec.width }
    if it.curPos > it.buf.size then .ok it.fail else it.nextChunk
  | .chunk => { it with curPos := it.curPos + Codec.be32.width, state := .item }.nextItem
  | .item => { it with curPos := it.curPos + it.curItemLen, state := .item }.nextItem

/-- `get_chunk`. -/
def getChunk (it : Iterator) : Except Fault SdesChunk :=
  if it.state ≠ .chunk then
    .error (.panic "sdes traverser: get_chunk() called in wrong state")
  else .ok { ssrc := it.parsedSsrc }

/-- `get_item`. -/
def getItem (it : Iterator) : Except Fault SdesItem :=
  if it.state ≠ .item then
    .error (.panic "sdes traverser: get_item() called in wrong state")
  else .ok { type := it.parsedItemType, text := it.parsedItemText }

end Iterator

/-- `while (next() != END)`. -/
def walk (sdes : SdesTraverser) : Except Fault (List Iterator × Iterator) :=
  Loop.collect Iterator.next (fun it => it.state == .end_) .outOfFuel (sdes.buf.size + 1) sdes.iter

/-! ## The iterator stays inside the packet -/

def Inside (it : Iterator) : Prop :=
  match it.state with
  | .begin_ => it.curPos = 0 ∧ 4 ≤ it.buf.size
  | .chunk => it.curPos + 4 ≤ it.buf.size
  | .item => 2 ≤ it.curItemLen ∧ it.curPos + it.curItemLen ≤ it.buf.size ∧
      it.parsedItemText.length ≤ it.curItemLen - 2
  | .end_ => True

/-- `next` from position `pos` of the packet `buf` arrives at `it`. -/
structure Arrives (buf : Slice) (pos : Nat) (it : Iterator) : Prop where
  buf_eq : it.buf = buf
  inside : Inside it
  forward : it.state = .end_ ∨ (it.state ≠ .begin_ ∧ pos ≤ it.curPos)

theorem skipPadding_spec {size pos : Nat} (h : pos < size) :
    ∃ pos', skipPadding size pos = .ok pos' ∧ pos < pos' ∧ pos' ≤ size := by
  refine Loop.repeatUntil_total (I := fun p => pos ≤ p ∧ p < size)
    (Q := fun p => pos < p ∧ p ≤ size) (μ := fun p => size - p) ?_ _ pos ⟨Nat.le_refl _, h⟩
    (by omega)
  rintro p ⟨hle, hlt⟩
  by_cases hc : p + 1 < size ∧ (p + 1) % 4 ≠ 0
  · exact .inr ⟨p + 1, by simp [hc], ⟨by omega, hc.1⟩, by omega⟩
  · exact .inl ⟨p + 1, by simp only [if_neg hc], by omega, by omega⟩

section
variable {it : Iterator}

theorem parseChunk_ok (it : Iterator) (h : it.curPos + 4 ≤ it.buf.size) :
    it.parseChunk = .ok { it with parsedSsrc := it.buf.peek Codec.be32 it.curPos } := by
  simp [Iterator.parseChunk, Slice.read_ok (c := Codec.be32) h]

theorem parseItem_ok (it : Iterator) {header : SdesItemHeader} (hh : it.buf.peek codec it.curPos = header)
    (h : it.curPos + (2 + header.len.toNat) ≤ it.buf.size) :
    it.parseItem = .ok { it with parsedItemText := textAt it.buf (it.curPos + 2) header.len.toNat,
                                 parsedItemType := header.type } := by
  have hread := Slice.read_ok (s := it.buf) (c := codec) (i := it.curPos) (by rw [codec_width]; omega)
  have htext : readText it.buf (it.curPos + 2) header.len.toNat =
      .ok (textAt it.buf (it.curPos + 2) header.len.toNat) := readText_ok (by omega)
  simp only [Iterator.parseItem, hread, ok_bind, hh, codec_width, htext, pure_eq_ok]

theorem nextChunk_spec (it : Iterator) (hs : it.state = .begin_ ∨ it.state = .chunk) :
    ∃ it', it.nextChunk = .ok it' ∧ Arrives it.buf it.curPos it' := by
  unfold Iterator.nextChunk
  rw [if_pos hs]
  split
  · exact ⟨_, rfl, rfl, trivial, .inl rfl⟩
  · split
    · exact ⟨_, rfl, rfl, trivial, .inl rfl⟩
    · rename_i hfit
      have hfit := Nat.not_lt.mp hfit
      exact ⟨_, parseChunk_ok { it with state := .chunk } hfit, rfl, hfit, .inr ⟨by simp, Nat.le_refl _⟩⟩

theorem nextItem_spec (it : Iterator) (hs : it.state = .item) (hpos : it.curPos ≤ it.buf.size) :
    ∃ it', it.nextItem = .ok it' ∧ Arrives it.buf it.curPos it' := by
  unfold Iterator.nextItem
  split
  · exact nextChunk_spec (it.endChunk it.curPos) (.inr rfl)
  · rename_i hne
    rw [Slice.read_ok (by show _ + 1 ≤ _; omega)]
    simp only [ok_bind]
    split
    · obtain ⟨pos', hp, hlt, -⟩ := skipPadding_spec (show it.curPos < it.buf.size by omega)
      rw [hp]
      obtain ⟨it', hn, hb, hi, hf⟩ := nextChunk_spec (it.endChunk pos') (.inr rfl)
      refine ⟨it', hn, hb, hi, hf.imp_right fun h => ⟨h.1, ?_⟩⟩
      exact Nat.le_trans (Nat.le_of_lt hlt) h.2
    · split
      · exact ⟨_, rfl, rfl, trivial, .inl rfl⟩
      · rename_i hhdr
        have hread := Slice.read_ok (Nat.not_lt.mp hhdr)
        rw [hread]
        simp only [ok_bind]
        split
        · exact ⟨_, rfl, rfl, trivial, .inl rfl⟩
        · rename_i hitem
          have hitem := Nat.not_lt.mp hitem
          refine ⟨_, parseItem_ok { it with curItemLen := _ } rfl hitem, rfl, ?_, .inr ⟨by simp [hs], Nat.le_refl _⟩⟩
          simp only [Inside, hs]
          refine ⟨Nat.le_add_right _ _, hitem, ?_⟩
          exact Nat.le_trans (textAt_length_le _ _ _) (by rw [codec_width]; omega)

theorem next_begin (hs : it.state = .begin_) (h4 : it.curPos + 4 ≤ it.buf.size) :
    it.next = { it with curPos := it.curPos + 4 }.nextChunk := by
  cases it
  cases hs
  exact if_neg (Nat.not_lt.mpr h4)

theorem next_chunk (hs : it.state = .chunk) :
    it.next = { it with curPos := it.curPos + 4, state := .item }.nextItem := by
  cases it
  cases hs
  rfl

theorem next_item (hs : it.state = .item) : it.next = { it with curPos := it.curPos + it.curItemLen }.nextItem := by
  cases it
  cases hs
  rfl

theorem Arrives.mono {buf : Slice} {p q : Nat} (h : Arrives buf q it) (hpq : p ≤ q) : Arrives buf p it :=
  ⟨h.buf_eq, h.inside, h.forward.imp_right fun hf => ⟨hf.1, Nat.le_trans hpq hf.2⟩⟩

/-- Every call of `next` returns, stays inside the packet and goes forward. -/
theorem next_spec (hi : Inside it) (hs : it.state ≠ .end_) :
    ∃ it', it.next = .ok it' ∧ Arrives it.buf (it.curPos + 1) it' := by
  unfold Inside at hi
  cases hst : it.state with
  | end_ => exact absurd hst hs
  | begin_ =>
    rw [hst] at hi
    rw [next_begin hst (by rw [hi.1]; exact hi.2)]
    obtain ⟨it', hn, ha⟩ := nextChunk_spec { it with curPos := it.curPos + 4 } (.inl hst)
    exact ⟨it', hn, ha.mono (by simp)⟩
  | chunk =>
    rw [hst] at hi
    rw [next_chunk hst]
    obtain ⟨it', hn, ha⟩ :=
      nextItem_spec { it with curPos := it.curPos + 4, state := .item } rfl hi
    exact ⟨it', hn, ha.mono (by simp)⟩
  | item =>
    rw [hst] at hi
    rw [next_item hst]
    obtain ⟨it', hn, ha⟩ :=
      nextItem_spec { it with curPos := it.curPos + it.curItemLen } hst hi.2.1
    exact ⟨it', hn, ha.mono (by have := hi.1; simp only; omega)⟩

end

theorem walk_spec (sdes : SdesTraverser) (h4 : 4 ≤ sdes.buf.size) :
    ∃ l last, walk sdes = .ok (l, last) ∧ last.state = .end_ ∧
      ∀ it ∈ l, (it.buf = sdes.buf ∧ Inside it ∧ it.state ≠ .begin_) ∧ it.state ≠ .end_ := by
  have hround : ∀ s : Iterator, (s.buf = sdes.buf ∧ Inside s ∧ s.state ≠ .end_) →
      ∃ s', s.next = .ok s' ∧ (s'.buf = sdes.buf ∧ Inside s' ∧ s'.state ≠ .begin_) ∧
        ((s'.state == .end_) = true ∨ ((s'.buf = sdes.buf ∧ Inside s' ∧ s'.state ≠ .end_) ∧
          sdes.buf.size - s'.curPos < sdes.buf.size - s.curPos)) := by
    rintro s ⟨hb, hi, hs⟩
    obtain ⟨s', hn, ha⟩ := next_spec hi hs
    have hnb : s'.state ≠ .begin_ := by
      rcases ha.forward with h | h
      · simp [h]
      · exact h.1
    refine ⟨s', hn, ⟨ha.buf_eq.trans hb, ha.inside, hnb⟩, ?_⟩
    by_cases hend : s'.state = .end_
    · exact .inl (beq_iff_eq.mpr hend)
    · refine .inr ⟨⟨ha.buf_eq.trans hb, ha.inside, hend⟩, ?_⟩
      have hin := ha.inside
      rcases ha.forward with h | ⟨-, hle⟩
      · exact absurd h hend
      · have hlt : s'.curPos < s'.buf.size := by
          unfold Inside at hin
          cases hst : s'.state with
          | end_ => exact absurd hst hend
          | begin_ => exact absurd hst hnb
          | chunk | item => rw [hst] at hin; simp only at hin; omega
        rw [ha.buf_eq, hb] at hlt
        omega
  obtain ⟨l, last, hc, hd, -, hall⟩ := Loop.collect_total hround .outOfFuel
    (sdes.buf.size + 1) sdes.iter ⟨rfl, ⟨rfl, h4⟩, by simp [iter]⟩ (by show _ - 0 < _; omega)
  refine ⟨l, last, hc, beq_iff_eq.mp hd, ?_⟩
  intro it hit
  exact ⟨(hall it hit).1, by simpa using (hall it hit).2⟩

end SdesTraverser
end Roc.Rtcp
