import RocToolkit.Lib.Loop
import RocToolkit.Rtcp.Headers

/-!
# RocToolkit.Rtcp.ByeTraverser

`rtcp::ByeTraverser`: the SSRCs of a BYE packet and its optional reason.
-/

namespace Roc.Rtcp

open Roc.Core (Slice)

open PacketHeader

structure ByeTraverser where
  buf : Slice
  ssrcCount : Nat
deriving DecidableEq, Repr

namespace ByeTraverser

inductive State where
  | begin_ | ssrc | reason | end_
deriving DecidableEq, Repr

structure Iterator where
  state : State
  buf : Slice
  ssrcCount : Nat
  curPos : Nat
  curSsrc : Nat
  error : Bool
  parsedSsrc : UInt32
  parsedReason : CString
deriving DecidableEq, Repr

/-- `ByeTraverser::parse`. -/
def parse (buf : Slice) : Except Fault (Option ByeTraverser) := do
  match ← parsePacket buf PacketHeader.codec.width RTCP_BYE true with
  | none => return none
  | some (header, buf) => return some { buf, ssrcCount := header.counter }

/-- `ByeTraverser::iter`. -/
def iter (bye : ByeTraverser) : Iterator :=
  { state := .begin_, buf := bye.buf, ssrcCount := bye.ssrcCount, curPos := 0, curSsrc := 0,
    error := false, parsedSsrc := 0, parsedReason := .empty }

namespace Iterator

def fail (it : Iterator) : Iterator := { it with error := true, state := .end_ }

/-- `parse_ssrc_`. -/
def parseSsrc (it : Iterator) : Except Fault Iterator := do
  let ssrc ← it.buf.read Codec.be32 it.curPos
  return { it with parsedSsrc := ssrc }

/-- `parse_reason_`. -/
def parseReason (it : Iterator) : Except Fault Iterator := do
  let len ← it.buf.read Codec.u8 it.curPos
  let text ← readText it.buf (it.curPos + Codec.u8.width) len.toNat
  return { it with parsedReason := text }

def nextReason (it : Iterator) : Except Fault Iterator := do
  if it.curPos < it.buf.size then
    if it.curPos + Codec.u8.width > it.buf.size then
      return it.fail
    let len ← it.buf.read Codec.u8 it.curPos
    if it.curPos + Codec.u8.width + len.toNat > it.buf.size then
      return it.fail
    { it with state := .reason }.parseReason
  else
    return { it with state := .end_ }

def nextSsrc (it : Iterator) : Except Fault Iterator :=
  if it.curSsrc = it.ssrcCount then it.nextReason
  else if it.curPos + Codec.be32.width > it.buf.size then .ok it.fail
  else { it with state := .ssrc }.parseSsrc

/-- `next`. The last branch of the source, a panic in any other state, has no counterpart: these are
all the states. -/
def next (it : Iterator) : Except Fault Iterator :=
  match it.state with
  | .end_ => .ok it
  | .begin_ =>
    let it := { it with curPos := it.curPos + PacketHeader.codec.width }
    if it.curPos > it.buf.size then .ok it.fail else it.nextSsrc
  | .ssrc => { it with curSsrc := it.curSsrc + 1, curPos := it.curPos + Codec.be32.width }.nextSsrc
  | .reason => .ok { it with state := .end_ }

/-- `get_ssrc`. -/
def getSsrc (it : Iterator) : Except Fault UInt32 :=
  if it.state ≠ .ssrc then .error (.panic "bye traverser: get_ssrc() called in wrong state")
  else .ok it.parsedSsrc

/-- `get_reason`. -/
def getReason (it : Iterator) : Except Fault CString :=
  if it.state ≠ .reason then .error (.panic "bye traverser: get_reason() called in wrong state")
  else .ok it.parsedReason

end Iterator

/-- `while (next() != END)`. -/
def walk (bye : ByeTraverser) : Except Fault (List Iterator × Iterator) :=
  Loop.collect Iterator.next (fun it => it.state == .end_) .outOfFuel (bye.buf.size + 1) bye.iter

/-! ## The iterator stays inside the packet -/

def Inside (it : Iterator) : Prop :=
  match it.state with
  | .begin_ => it.curPos = 0 ∧ 4 ≤ it.buf.size
  | .ssrc => it.curPos + 4 ≤ it.buf.size
  | .reason => it.curPos + 1 + it.parsedReason.length ≤ it.buf.size
  | .end_ => True

def rest (it : Iterator) : Nat := if it.state = .reason then 0 else it.buf.size - it.curPos

/-- `next` from position `pos` of the packet `buf` arrives at `it`. -/
structure Arrives (buf : Slice) (pos : Nat) (it : Iterator) : Prop where
  buf_eq : it.buf = buf
  inside : Inside it
  forward : it.state = .end_ ∨ it.state = .reason ∨ (it.state = .ssrc ∧ pos ≤ it.curPos)

section
variable {it : Iterator}

theorem parseSsrc_ok (it : Iterator) (h : it.curPos + 4 ≤ it.buf.size) :
    it.parseSsrc = .ok { it with parsedSsrc := it.buf.peek Codec.be32 it.curPos } := by
  simp [Iterator.parseSsrc, Slice.read_ok (c := Codec.be32) h]

theorem parseReason_ok (it : Iterator) {len : UInt8} (hl : it.buf.peek Codec.u8 it.curPos = len)
    (h : it.curPos + 1 + len.toNat ≤ it.buf.size) :
    it.parseReason = .ok { it with parsedReason := textAt it.buf (it.curPos + 1) len.toNat } := by
  have hwidth : Codec.u8.width = 1 := rfl
  have hread := Slice.read_ok (s := it.buf) (c := Codec.u8) (i := it.curPos) (by omega)
  simp only [Iterator.parseReason, hread, ok_bind, hl, hwidth, readText_ok h, pure_eq_ok]

theorem nextReason_spec : ∃ it', it.nextReason = .ok it' ∧ Arrives it.buf it.curPos it' := by
  unfold Iterator.nextReason
  split
  · rename_i hlt
    rw [if_neg (by show ¬ _ + 1 > _; omega), Slice.read_ok (by show _ + 1 ≤ _; omega)]
    simp only [ok_bind]
    split
    · exact ⟨_, rfl, rfl, trivial, .inl rfl⟩
    · rename_i hfit
      have hfit := Nat.not_lt.mp hfit
      refine ⟨_, parseReason_ok { it with state := .reason } rfl hfit, rfl, ?_, .inr (.inl rfl)⟩
      exact Nat.le_trans (Nat.add_le_add_left (textAt_length_le _ _ _) _) hfit
  · exact ⟨_, rfl, rfl, trivial, .inl rfl⟩

theorem nextSsrc_spec (it : Iterator) : ∃ it', it.nextSsrc = .ok it' ∧ Arrives it.buf it.curPos it' := by
  unfold Iterator.nextSsrc
  split
  · exact nextReason_spec
  · split
    · exact ⟨_, rfl, rfl, trivial, .inl rfl⟩
    · rename_i hfit
      have hfit := Nat.not_lt.mp hfit
      exact ⟨_, parseSsrc_ok { it with state := .ssrc } hfit, rfl, hfit, .inr (.inr ⟨rfl, Nat.le_refl _⟩)⟩

theorem next_begin (hs : it.state = .begin_) (h4 : it.curPos + 4 ≤ it.buf.size) :
    it.next = { it with curPos := it.curPos + 4 }.nextSsrc := by
  cases it
  cases hs
  exact if_neg (Nat.not_lt.mpr h4)

theorem next_ssrc (hs : it.state = .ssrc) :
    it.next = { it with curSsrc := it.curSsrc + 1, curPos := it.curPos + 4 }.nextSsrc := by
  cases it
  cases hs
  rfl

theorem next_reason (hs : it.state = .reason) : it.next = .ok { it with state := .end_ } := by
  cases it
  cases hs
  rfl

/-- Every call of `next` returns, stays inside the packet and leaves less to walk. -/
theorem next_spec (hi : Inside it) (hs : it.state ≠ .end_) :
    ∃ it', it.next = .ok it' ∧ it'.buf = it.buf ∧ Inside it' ∧ it'.state ≠ .begin_ ∧
      (it'.state = .end_ ∨ rest it' < rest it) := by
  have hstep : ∀ it' : Iterator, it.state ≠ .reason → it.curPos < it.buf.size →
      Arrives it.buf (it.curPos + 4) it' → it'.buf = it.buf ∧ Inside it' ∧ it'.state ≠ .begin_ ∧
        (it'.state = .end_ ∨ rest it' < rest it) := by
    intro it' hr hlt ha
    refine ⟨ha.buf_eq, ha.inside, ?_, ?_⟩
    · rcases ha.forward with h | h | ⟨h, -⟩ <;> simp [h]
    rcases ha.forward with h | h | ⟨h, hle⟩
    · exact .inl h
    · refine .inr ?_
      rw [rest, rest, if_pos h, if_neg hr]
      omega
    · refine .inr ?_
      rw [rest, rest, if_neg (by rw [h]; simp), if_neg hr, ha.buf_eq]
      omega
  unfold Inside at hi
  cases hst : it.state with
  | end_ => exact absurd hst hs
  | begin_ =>
    rw [hst] at hi
    rw [next_begin hst (by rw [hi.1]; exact hi.2)]
    obtain ⟨it', hn, ha⟩ := nextSsrc_spec { it with curPos := it.curPos + 4 }
    exact ⟨it', hn, hstep it' (by simp [hst]) (by have := hi.1; have := hi.2; omega) ha⟩
  | ssrc =>
    rw [hst] at hi
    simp only at hi
    rw [next_ssrc hst]
    obtain ⟨it', hn, ha⟩ :=
      nextSsrc_spec { it with curSsrc := it.curSsrc + 1, curPos := it.curPos + 4 }
    exact ⟨it', hn, hstep it' (by simp [hst]) (by omega) ha⟩
  | reason => exact ⟨_, next_reason hst, rfl, trivial, by simp, .inl rfl⟩

end

theorem walk_spec (bye : ByeTraverser) (h4 : 4 ≤ bye.buf.size) :
    ∃ l last, walk bye = .ok (l, last) ∧ last.state = .end_ ∧
      ∀ it ∈ l, (it.buf = bye.buf ∧ Inside it ∧ it.state ≠ .begin_) ∧ it.state ≠ .end_ := by
  have hround : ∀ s : Iterator, (s.buf = bye.buf ∧ Inside s ∧ s.state ≠ .end_) →
      ∃ s', s.next = .ok s' ∧ (s'.buf = bye.buf ∧ Inside s' ∧ s'.state ≠ .begin_) ∧
        ((s'.state == .end_) = true ∨
          ((s'.buf = bye.buf ∧ Inside s' ∧ s'.state ≠ .end_) ∧ rest s' < rest s)) := by
    rintro s ⟨hb, hi, hs⟩
    obtain ⟨s', hn, hb', hi', hnb, hor⟩ := next_spec hi hs
    refine ⟨s', hn, ⟨hb'.trans hb, hi', hnb⟩, ?_⟩
    by_cases hend : s'.state = .end_
    · exact .inl (beq_iff_eq.mpr hend)
    · exact .inr ⟨⟨hb'.trans hb, hi', hend⟩, hor.resolve_left hend⟩
  obtain ⟨l, last, hc, hd, -, hall⟩ := Loop.collect_total hround .outOfFuel
    (bye.buf.size + 1) bye.iter ⟨rfl, ⟨rfl, h4⟩, by simp [iter]⟩ (by simp [rest, iter])
  refine ⟨l, last, hc, beq_iff_eq.mp hd, ?_⟩
  intro it hit
  exact ⟨(hall it hit).1, by simpa using (hall it hit).2⟩

end ByeTraverser
end Roc.Rtcp
