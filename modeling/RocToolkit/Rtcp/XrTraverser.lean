import Mathlib.Tactic.SplitIfs
import RocToolkit.Lib.Chain
import RocToolkit.Rtcp.Headers

/-!
# RocToolkit.Rtcp.XrTraverser

`rtcp::XrTraverser`: the walk over the report blocks of an XR packet. Its loop has the shape of
the loop of `Traverser`, so it is another walker over a chain.
-/

namespace Roc.Rtcp

open Roc.Core (Slice)

open XrBlockHeader

structure XrTraverser where
  buf : Slice
  blocksCount : Nat
deriving DecidableEq, Repr

namespace XrTraverser

inductive State where
  | begin_ | rrtr | dlrr | measurementInfo | delayMetrics | queueMetrics | end_
deriving DecidableEq, Repr

/-- `cur_blk_header_` points to the block header at `curPos`. -/
structure Iterator where
  state : State
  buf : Slice
  curPos : Nat
  curBlkLen : Nat
  error : Bool
deriving DecidableEq, Repr

/-- `Iterator::Iterator`. -/
def begin_ (buf : Slice) : Iterator :=
  { state := .begin_, buf, curPos := 0, curBlkLen := 0, error := false }

namespace Iterator

def checkMin (it : Iterator) (width : Nat) : Bool := !(it.curBlkLen < width)

def checkRrtr (it : Iterator) : Bool := it.checkMin XrRrtrBlock.codec.width

def checkDlrr (it : Iterator) (header : XrBlockHeader) : Bool := !(it.curBlkLen < XrDlrrBlock.codec.width +
    (XrDlrrBlock.mk header).numSubblocks * XrDlrrSubblock.codec.width)

def checkMeasurementInfo (it : Iterator) : Bool := it.checkMin XrMeasurementInfoBlock.codec.width

def checkDelayMetrics (it : Iterator) : Bool := it.checkMin XrDelayMetricsBlock.codec.width

def checkQueueMetrics (it : Iterator) : Bool := !(it.curBlkLen ≠ XrQueueMetricsBlock.codec.width)

def fail (it : Iterator) : Loop.Round Iterator := .leave { it with error := true, state := .end_ }

def skip (it : Iterator) : Loop.Round Iterator := .again { it with curPos := it.curPos + it.curBlkLen }

def visitBlock (it : Iterator) (valid : Bool) (state : State) : Loop.Round Iterator :=
  if !valid then { it with error := true }.skip else .leave { it with state }

/-- The `switch` over block types. -/
def dispatch (it : Iterator) (header : XrBlockHeader) : Loop.Round Iterator :=
  if header.blockType = XR_RRTR then it.visitBlock it.checkRrtr .rrtr
  else if header.blockType = XR_DLRR then it.visitBlock (it.checkDlrr header) .dlrr
  else if header.blockType = XR_MEASUREMENT_INFO then
    it.visitBlock it.checkMeasurementInfo .measurementInfo
  else if header.blockType = XR_DELAY_METRICS then
    it.visitBlock it.checkDelayMetrics .delayMetrics
  else if header.blockType = XR_QUEUE_METRICS then
    it.visitBlock it.checkQueueMetrics .queueMetrics
  else it.skip

/-- One round of the loop of `next_block_`. -/
def visit (it : Iterator) : Except Fault (Loop.Round Iterator) := do
  if it.curPos = it.buf.size then
    return .leave { it with state := .end_ }
  if it.curPos + XrBlockHeader.codec.width > it.buf.size then
    return it.fail
  let header ← it.buf.read XrBlockHeader.codec it.curPos
  let it := { it with curBlkLen := header.lenBytes }
  if it.curPos + it.curBlkLen > it.buf.size then
    return it.fail
  return it.dispatch header

/-- `next`. -/
def next (it : Iterator) : Except Fault Iterator :=
  match it.state with
  | .end_ => .ok it
  | .begin_ =>
    -- skip packet header
    let it := { it with curPos := it.curPos + XrPacket.codec.width }
    if it.curPos > it.buf.size then .ok { it with error := true, state := .end_ }
    else Loop.repeatUntil visit .outOfFuel (it.buf.size + 1) it
  | _ => Loop.repeatUntil visit .outOfFuel (it.buf.size + 1)
      { it with curPos := it.curPos + it.curBlkLen }

/-- The block `get_rrtr` and the other getters refer to. -/
def getBlock {α : Type} (it : Iterator) (state : State) (codec : Codec α) (msg : String) : Except Fault α :=
  if it.state ≠ state then .error (.panic msg) else it.buf.read codec it.curPos

def getRrtr (it : Iterator) : Except Fault XrRrtrBlock :=
  it.getBlock .rrtr XrRrtrBlock.codec "xr traverser: get_rrtr() called in wrong state"

def getDlrr (it : Iterator) : Except Fault XrDlrrBlock :=
  it.getBlock .dlrr XrDlrrBlock.codec "xr traverser: get_dlrr() called in wrong state"

def getMeasurementInfo (it : Iterator) : Except Fault XrMeasurementInfoBlock :=
  it.getBlock .measurementInfo XrMeasurementInfoBlock.codec "xr traverser: get_measurement_info() called in wrong state"

def getDelayMetrics (it : Iterator) : Except Fault XrDelayMetricsBlock :=
  it.getBlock .delayMetrics XrDelayMetricsBlock.codec "xr traverser: get_delay_metrics() called in wrong state"

def getQueueMetrics (it : Iterator) : Except Fault XrQueueMetricsBlock :=
  it.getBlock .queueMetrics XrQueueMetricsBlock.codec "xr traverser: get_queue_metrics() called in wrong state"

/-- `get_dlrr().get_subblock(i)`. -/
def getSubblock (it : Iterator) (i : Nat) : Except Fault XrDlrrSubblock := do
  let dlrr ← it.getDlrr
  if i ≥ dlrr.numSubblocks then
    throw (.panic "rtcp dlrr: out of bounds")
  it.buf.read XrDlrrSubblock.codec (it.curPos + XrDlrrBlock.codec.width + i * XrDlrrSubblock.codec.width)

end Iterator

/-- `while (next() != END)`. -/
def walk (buf : Slice) : Except Fault (List Iterator × Iterator) :=
  Loop.collect Iterator.next (fun it => it.state == .end_) .outOfFuel (buf.size + 1) (begin_ buf)

/-- `XrTraverser::parse`: the blocks are counted by a walk of its own. -/
def parse (buf : Slice) : Except Fault (Option XrTraverser) := do
  match ← parsePacket buf XrPacket.codec.width RTCP_XR false with
  | none => return none
  | some (_, buf) =>
    let (blocks, _) ← walk buf
    return some { buf, blocksCount := blocks.length }

/-- `XrTraverser::packet`. -/
def packet (xr : XrTraverser) : Except Fault XrPacket := xr.buf.read XrPacket.codec 0

/-! ## What a walk finds -/

/-- A complete block at `p`. -/
def Delimited (buf : Slice) (p : Nat) : Prop := p + XrBlockHeader.codec.width ≤ buf.size ∧
    p + (buf.peek XrBlockHeader.codec p).lenBytes ≤ buf.size

instance (buf : Slice) (p : Nat) : Decidable (Delimited buf p) := inferInstanceAs (Decidable (_ ∧ _))

def kind (h : XrBlockHeader) : Option State :=
  if h.blockType = XR_RRTR then some .rrtr
  else if h.blockType = XR_DLRR then some .dlrr
  else if h.blockType = XR_MEASUREMENT_INFO then some .measurementInfo
  else if h.blockType = XR_DELAY_METRICS then some .delayMetrics
  else if h.blockType = XR_QUEUE_METRICS then some .queueMetrics
  else none

def validLen (h : XrBlockHeader) : State → Bool
  | .rrtr => !(h.lenBytes < 12)
  | .dlrr => !(h.lenBytes < 4 + (XrDlrrBlock.mk h).numSubblocks * 12)
  | .measurementInfo => !(h.lenBytes < 32)
  | .delayMetrics => !(h.lenBytes < 28)
  | .queueMetrics => !(h.lenBytes ≠ 16)
  | .begin_ | .end_ => false

/-- The state `next` stops in at a block, if it does. -/
def stopState (h : XrBlockHeader) : Option State := (kind h).filter (validLen h)

def chain (buf : Slice) : Chain where
  size := buf.size
  len p := if Delimited buf p then some (buf.peek XrBlockHeader.codec p).lenBytes else none
  stop p := (stopState (buf.peek XrBlockHeader.codec p)).isSome
  bad p := (kind (buf.peek XrBlockHeader.codec p)).isSome
  len_pos := by
    intro p n h
    split at h
    · cases h
      have := (buf.peek XrBlockHeader.codec p).lenBytes_ge
      omega
    · cases h
  len_fits := by
    intro p n h
    split at h
    · rename_i hd
      cases h
      exact hd.2
    · cases h

section
variable {buf : Slice} {p : Nat}

@[simp] theorem chain_size : (chain buf).size = buf.size := rfl

theorem chain_len (h : Delimited buf p) : (chain buf).len p = some (buf.peek codec p).lenBytes := if_pos h

theorem chain_len_none (h : ¬ Delimited buf p) : (chain buf).len p = none := if_neg h

theorem delimited_of_len {n : Nat} (h : (chain buf).len p = some n) :
    Delimited buf p ∧ n = (buf.peek codec p).lenBytes := by
  by_cases hd : Delimited buf p
  · rw [chain_len hd] at h
    exact ⟨hd, (Option.some.inj h).symm⟩
  · rw [chain_len_none hd] at h
    cases h

end

/-- The iterator stands at the block at `p`, whose header is `h`. -/
structure StoppedAt (it : Iterator) (p : Nat) (h : XrBlockHeader) : Prop where
  delimited : Delimited it.buf p
  header : it.buf.peek XrBlockHeader.codec p = h
  pos : it.curPos = p
  len : it.curBlkLen = h.lenBytes
  state : stopState h = some it.state

def view (buf : Slice) : Chain.View Iterator where
  Home it := it.buf = buf
  pos it := it.curPos
  err it := it.error
  At it p := StoppedAt it p (buf.peek XrBlockHeader.codec p)
  Ended it := it.state = .end_

section
variable (it : Iterator)
include it

open Iterator

theorem dispatch_eq (h : XrBlockHeader) (hl : it.curBlkLen = h.lenBytes) : it.dispatch h = match kind h with
      | none => it.skip
      | some state => it.visitBlock (validLen h state) state := by
  unfold dispatch kind
  split_ifs
  all_goals simp [hl, checkRrtr, checkDlrr, checkMeasurementInfo,
    checkDelayMetrics, checkQueueMetrics, checkMin, validLen]

theorem visitBlock_invalid (state : State) : it.visitBlock false state = { it with error := true }.skip := rfl

theorem visitBlock_valid (state : State) : it.visitBlock true state = .leave { it with state } := rfl

theorem dispatch_spec {h : XrBlockHeader} (hd : Delimited it.buf it.curPos)
    (hh : it.buf.peek codec it.curPos = h) (hl : it.curBlkLen = h.lenBytes) :
    (chain it.buf).Visit (view it.buf) it (it.dispatch h) := by
  subst hh
  rw [dispatch_eq it _ hl]
  cases hk : kind (it.buf.peek codec it.curPos) with
  | none =>
    have hstop : (chain it.buf).stop it.curPos = false := by simp [chain, stopState, hk]
    refine .skip (chain_len hd) hstop rfl ?_ ?_
    · simp [view, hl]
    · simp [view, chain, hk]
  | some state =>
    dsimp only
    cases hv : validLen (it.buf.peek codec it.curPos) state with
    | false =>
      have hstop : (chain it.buf).stop it.curPos = false := by simp [chain, stopState, hk, hv]
      rw [visitBlock_invalid]
      refine .skip (chain_len hd) hstop rfl ?_ ?_
      · simp [view, hl]
      · simp [view, chain, hk]
    | true =>
      have hstop : (chain it.buf).stop it.curPos = true := by simp [chain, stopState, hk, hv]
      rw [visitBlock_valid]
      refine .stop (chain_len hd) hstop rfl ?_ rfl
      have hst : stopState (it.buf.peek codec it.curPos) = some state := by
        simp [stopState, hk, hv]
      exact ⟨hd, rfl, rfl, hl, hst⟩

/-- One round of the loop never faults, and does one of the things `Chain.Visit` lists. -/
theorem visit_cases : ∃ r, it.visit = .ok r ∧ (chain it.buf).Visit (view it.buf) it r := by
  unfold visit
  split
  · rename_i heq
    refine ⟨_, rfl, .finish (chain_len_none ?_) rfl rfl rfl (by simp [view, heq])⟩
    intro hd
    have := hd.1
    simp only [codec_width, view] at this
    omega
  · rename_i hne
    split
    · rename_i hshort
      exact ⟨_, rfl, .finish (chain_len_none fun hd => Nat.not_lt.mpr hd.1 hshort) rfl rfl rfl (by simp [view, hne])⟩
    · rename_i hhdr
      rw [Slice.read_ok (Nat.not_lt.mp hhdr)]
      simp only [ok_bind]
      split
      · rename_i hlong
        exact ⟨_, rfl, .finish (chain_len_none fun hd => Nat.not_lt.mpr hd.2 hlong) rfl rfl rfl (by simp [view, hne])⟩
      · rename_i hfit
        have hv := dispatch_spec
          { it with curBlkLen := (it.buf.peek codec it.curPos).lenBytes }
          ⟨Nat.not_lt.mp hhdr, Nat.not_lt.mp hfit⟩ rfl rfl
        exact ⟨_, rfl, hv.of_eq rfl rfl⟩

end

/-! ## Whole walks -/

def walker (buf : Slice) : (chain buf).Walker Fault Iterator where
  toView := view buf
  visit := Iterator.visit
  visit_cases := by
    rintro it rfl
    exact visit_cases it

variable {h : XrBlockHeader}

theorem stopState_eq_some {state : State} (hs : stopState h = some state) :
    kind h = some state ∧ validLen h state = true := by
  simpa [stopState, Option.filter_eq_some_iff] using hs

variable {it : Iterator} {buf : Slice}

theorem StoppedAt.not_end {p : Nat} (hs : StoppedAt it p h) : it.state ≠ .begin_ ∧ it.state ≠ .end_ := by
  have hv := (stopState_eq_some hs.state).2
  constructor <;> intro he <;> rw [he] at hv <;> cases hv

theorem next_stopped {p n : Nat} (hs : (view it.buf).At it p) (hl : (chain it.buf).len p = some n) :
    ∃ it', it.next = .ok it' ∧ (walker it.buf).Arrives (p + n) it.error it' := by
  obtain ⟨hd, rfl⟩ := delimited_of_len hl
  have hnext : it.next = Loop.repeatUntil Iterator.visit .outOfFuel (it.buf.size + 1)
      { it with curPos := it.curPos + it.curBlkLen } := by
    obtain ⟨hb, he⟩ := hs.not_end
    unfold Iterator.next
    split
    · contradiction
    · contradiction
    · rfl
  have hloop := (walker it.buf).loop_spec .outOfFuel (s := { it with curPos := it.curPos + it.curBlkLen }) rfl
    (by simpa [walker, view, hs.pos, hs.len] using hd.2)
  rw [hnext]
  simpa [walker, view, hs.pos, hs.len] using hloop

theorem next_begin (h8 : 8 ≤ buf.size) : ∃ it', (begin_ buf).next = .ok it' ∧ (walker buf).Arrives 8 false it' := by
  have hloop := (walker buf).loop_spec .outOfFuel (s := { begin_ buf with curPos := 8 }) rfl h8
  have hnext : (begin_ buf).next = Loop.repeatUntil Iterator.visit .outOfFuel (buf.size + 1)
      { begin_ buf with curPos := 8 } := by
    exact if_neg (Nat.not_lt.mpr h8)
  rw [hnext]
  exact hloop

theorem walk_spec (h8 : 8 ≤ buf.size) : ∃ l last, walk buf = .ok (l, last) ∧ (walker buf).Walked 8 false l last := by
  refine (walker buf).collect_spec ?_ ?_ ?_ _ _ 8 false (next_begin h8) h8 (by simp only [chain_size]; omega)
  · rintro it p n rfl hat hl
    exact next_stopped hat hl
  · intro it hend
    exact beq_iff_eq.mpr hend
  · intro it p hat
    simpa using hat.not_end.2

end XrTraverser
end Roc.Rtcp
