import RocToolkit.Rtcp.ByeTraverser
import RocToolkit.Rtcp.SdesTraverser
import RocToolkit.Rtcp.Traverser
import RocToolkit.Rtcp.XrTraverser

/-!
# RocToolkit.Rtcp.Decode

Everything the traversers return for a compound packet, in the order in which they return it:
`Traverser` gives the sub-packets, and for SDES, BYE and XR the inner traverser gives the elements.
This is the program a user of the traversers runs, with every getter called.
-/

namespace Roc.Rtcp

open Roc.Core (Slice)

open SdesTraverser.Iterator PacketHeader

inductive XrBlock where
  | rrtr (blk : XrRrtrBlock)
  | dlrr (blk : XrDlrrBlock) (subblocks : List XrDlrrSubblock)
  | measurementInfo (blk : XrMeasurementInfoBlock)
  | delayMetrics (blk : XrDelayMetricsBlock)
  | queueMetrics (blk : XrQueueMetricsBlock)
deriving DecidableEq, Repr

inductive SdesElement where
  | chunk (chunk : SdesChunk)
  | item (item : SdesItem)
deriving DecidableEq, Repr

inductive ByeElement where
  | ssrc (ssrc : UInt32)
  | reason (text : CString)
deriving DecidableEq, Repr

/-- What is read from one sub-packet. Packets with a traverser of their own come with its `error()`,
or are `none` if its `parse()` refuses them. -/
inductive Packet where
  | sr (packet : SenderReportPacket) (blocks : List ReceptionReportBlock)
  | rr (packet : ReceiverReportPacket) (blocks : List ReceptionReportBlock)
  | xr (content : Option (XrPacket × List XrBlock × Bool))
  | sdes (content : Option (List SdesElement × Bool))
  | bye (content : Option (List ByeElement × Bool))
deriving DecidableEq, Repr

/-! ## Reading -/

def XrTraverser.Iterator.readBlock (it : Iterator) : Except Fault XrBlock :=
  match it.state with
  | .rrtr => do return .rrtr (← it.getRrtr)
  | .dlrr => do
    let dlrr ← it.getDlrr
    let subblocks ← (List.range dlrr.numSubblocks).mapM it.getSubblock
    return .dlrr dlrr subblocks
  | .measurementInfo => do return .measurementInfo (← it.getMeasurementInfo)
  | .delayMetrics => do return .delayMetrics (← it.getDelayMetrics)
  | .queueMetrics => do return .queueMetrics (← it.getQueueMetrics)
  | .begin_ | .end_ => .error (.panic "xr traverser: no block")

def SdesTraverser.Iterator.readElement (it : Iterator) : Except Fault SdesElement :=
  match it.state with
  | .chunk => do return .chunk (← it.getChunk)
  | .item => do return .item (← it.getItem)
  | .begin_ | .end_ => .error (.panic "sdes traverser: no element")

def ByeTraverser.Iterator.readElement (it : Iterator) : Except Fault ByeElement :=
  match it.state with
  | .ssrc => do return .ssrc (← it.getSsrc)
  | .reason => do return .reason (← it.getReason)
  | .begin_ | .end_ => .error (.panic "bye traverser: no element")

def decodeXr (slice : Slice) : Except Fault (Option (XrPacket × List XrBlock × Bool)) := do
  match ← XrTraverser.parse slice with
  | none => return none
  | some xr =>
    let (stops, last) ← XrTraverser.walk xr.buf
    let blocks ← stops.mapM XrTraverser.Iterator.readBlock
    return some (← xr.packet, blocks, last.error)

def decodeSdes (slice : Slice) : Except Fault (Option (List SdesElement × Bool)) := do
  match ← SdesTraverser.parse slice with
  | none => return none
  | some sdes =>
    let (stops, last) ← sdes.walk
    let elements ← stops.mapM SdesTraverser.Iterator.readElement
    return some (elements, last.error)

def decodeBye (slice : Slice) : Except Fault (Option (List ByeElement × Bool)) := do
  match ← ByeTraverser.parse slice with
  | none => return none
  | some bye =>
    let (stops, last) ← bye.walk
    let elements ← stops.mapM ByeTraverser.Iterator.readElement
    return some (elements, last.error)

def Traverser.Iterator.readPacket (it : Iterator) : Except Fault Packet :=
  match it.state with
  | .sr => do
    let sr ← it.getSr
    let blocks ← (List.range sr.header.counter).mapM it.getSrBlock
    return .sr sr blocks
  | .rr => do
    let rr ← it.getRr
    let blocks ← (List.range rr.header.counter).mapM it.getRrBlock
    return .rr rr blocks
  | .xr => do return .xr (← decodeXr (← it.getSlice .xr))
  | .sdes => do return .sdes (← decodeSdes (← it.getSlice .sdes))
  | .bye => do return .bye (← decodeBye (← it.getSlice .bye))
  | .begin_ | .end_ => .error (.panic "rtcp traverser: no packet")

/-- All sub-packets and the `error()` of the traversal, or `none` if `parse()` refuses the buffer. -/
def decode (buf : Slice) : Except Fault (Option (List Packet × Bool)) := do
  if !Traverser.parse buf then
    return none
  let (stops, last) ← Traverser.traverse buf
  let packets ← stops.mapM Traverser.Iterator.readPacket
  return some (packets, last.error)

/-! ## Reading never faults -/

section
open XrTraverser

variable {it : Iterator} {h : XrBlockHeader} {p : Nat} {state : State}

open Iterator

theorem getBlock_ok {α : Type} {codec : Codec α} (msg : String) (hs : StoppedAt it p h) (hst : it.state = state)
    (hw : codec.width ≤ h.lenBytes) : it.getBlock state codec msg = .ok (it.buf.peek codec p) := by
  have hfit := hs.delimited.2
  rw [hs.header] at hfit
  unfold getBlock
  rw [if_neg (not_not.mpr hst), hs.pos, Slice.read_ok (by omega)]

theorem getSubblock_ok (hs : StoppedAt it p h)
    (hst : it.state = .dlrr) {i : Nat} (hi : i < (XrDlrrBlock.mk h).numSubblocks) :
    it.getSubblock i = .ok (it.buf.peek XrDlrrSubblock.codec (p + 4 + i * 12)) := by
  have hfit := hs.delimited.2
  have hpeek : it.buf.peek XrDlrrBlock.codec p = ⟨h⟩ := congrArg XrDlrrBlock.mk hs.header
  have hnum : (XrDlrrBlock.mk h).numSubblocks * 12 ≤ h.lenBytes - 4 := Nat.div_mul_le_self _ _
  have hi12 : i * 12 + 12 ≤ (XrDlrrBlock.mk h).numSubblocks * 12 := by omega
  rw [hs.header] at hfit
  unfold getSubblock
  rw [show it.getDlrr = .ok ⟨h⟩ from by
    rw [← hpeek]; exact getBlock_ok _ hs hst h.lenBytes_ge]
  simp only [ok_bind, if_neg (Nat.not_le.mpr hi), XrDlrrBlock.codec_width, XrDlrrSubblock.codec_width, hs.pos]
  exact Slice.read_ok (by rw [XrDlrrSubblock.codec_width]; omega)

theorem width_le_of_validLen (hv : validLen h state = true) : (state = .rrtr → XrRrtrBlock.codec.width ≤ h.lenBytes) ∧
    (state = .dlrr → XrDlrrBlock.codec.width ≤ h.lenBytes) ∧
    (state = .measurementInfo → XrMeasurementInfoBlock.codec.width ≤ h.lenBytes) ∧
    (state = .delayMetrics → XrDelayMetricsBlock.codec.width ≤ h.lenBytes) ∧
    (state = .queueMetrics → XrQueueMetricsBlock.codec.width ≤ h.lenBytes) := by
  refine ⟨?_, ?_, ?_, ?_, ?_⟩ <;> rintro rfl <;> simp [validLen] at hv ⊢ <;> omega

/-- The block at `p`, by the type the traverser found there. -/
def blockAt (buf : Slice) (p : Nat) : State → Option XrBlock
  | .rrtr => some (.rrtr (buf.peek XrRrtrBlock.codec p))
  | .dlrr =>
    let dlrr := buf.peek XrDlrrBlock.codec p
    some (.dlrr dlrr ((List.range dlrr.numSubblocks).map fun i =>
      buf.peek XrDlrrSubblock.codec (p + 4 + i * 12)))
  | .measurementInfo => some (.measurementInfo (buf.peek XrMeasurementInfoBlock.codec p))
  | .delayMetrics => some (.delayMetrics (buf.peek XrDelayMetricsBlock.codec p))
  | .queueMetrics => some (.queueMetrics (buf.peek XrQueueMetricsBlock.codec p))
  | .begin_ | .end_ => none

theorem readBlock_ok (hs : StoppedAt it p h) : ∃ b, blockAt it.buf p it.state = some b ∧ it.readBlock = .ok b := by
  obtain ⟨hrrtr, hdlrr, hmi, hdm, hqm⟩ := width_le_of_validLen (stopState_eq_some hs.state).2
  unfold readBlock
  cases hst : it.state with
  | begin_ => exact absurd hst hs.not_end.1
  | end_ => exact absurd hst hs.not_end.2
  | rrtr =>
    exact ⟨_, rfl, by rw [getRrtr, getBlock_ok _ hs hst (hrrtr hst)]; rfl⟩
  | dlrr =>
    have hpeek : it.buf.peek XrDlrrBlock.codec p = ⟨h⟩ := congrArg XrDlrrBlock.mk hs.header
    have hsub := Loop.mapM_map (l := List.range (XrDlrrBlock.mk h).numSubblocks)
      (fun i hi => getSubblock_ok hs hst (List.mem_range.mp hi))
    refine ⟨_, rfl, ?_⟩
    rw [getDlrr, getBlock_ok _ hs hst (hdlrr hst), hpeek]
    simp only [ok_bind, hsub, pure_eq_ok]
  | measurementInfo =>
    exact ⟨_, rfl, by rw [getMeasurementInfo, getBlock_ok _ hs hst (hmi hst)]; rfl⟩
  | delayMetrics =>
    exact ⟨_, rfl, by rw [getDelayMetrics, getBlock_ok _ hs hst (hdm hst)]; rfl⟩
  | queueMetrics =>
    exact ⟨_, rfl, by rw [getQueueMetrics, getBlock_ok _ hs hst (hqm hst)]; rfl⟩

end

section
variable {it : SdesTraverser.Iterator}

theorem readElement_chunk (hst : it.state = .chunk) : it.readElement = .ok (.chunk ⟨it.parsedSsrc⟩) := by
  simp [readElement, getChunk, hst]

theorem readElement_item (hst : it.state = .item) :
    it.readElement = .ok (.item ⟨it.parsedItemType, it.parsedItemText⟩) := by
  simp [readElement, getItem, hst]

end

section
variable {it : ByeTraverser.Iterator}

theorem readElement_ssrc (hst : it.state = .ssrc) : it.readElement = .ok (.ssrc it.parsedSsrc) := by
  simp [ByeTraverser.Iterator.readElement, ByeTraverser.Iterator.getSsrc, hst]

theorem readElement_reason (hst : it.state = .reason) : it.readElement = .ok (.reason it.parsedReason) := by
  simp [ByeTraverser.Iterator.readElement, ByeTraverser.Iterator.getReason, hst]

end

section
open Traverser

variable {it : Iterator} {p : Nat} {h : PacketHeader}

section
variable (hs : StoppedAt it p h)
include hs

theorem readPacket_sr (hst : it.state = .sr) : it.readPacket = .ok (.sr (it.curPktSlice.peek SenderReportPacket.codec 0)
      ((List.range (it.curPktSlice.peek codec 0).counter).map fun i =>
        it.curPktSlice.peek ReceptionReportBlock.codec (28 + i * 24))) := by
  obtain ⟨hget, hblk⟩ := getSr_ok hs hst
  have hmap := Loop.mapM_map fun i hi => hblk i (List.mem_range.mp hi)
  unfold Iterator.readPacket
  rw [hst]
  simp only [hget, ok_bind]
  rw [show (it.curPktSlice.peek SenderReportPacket.codec 0).header = it.curPktSlice.peek codec 0 from rfl, hmap]
  rfl

theorem readPacket_rr (hst : it.state = .rr) :
    it.readPacket = .ok (.rr (it.curPktSlice.peek ReceiverReportPacket.codec 0)
      ((List.range (it.curPktSlice.peek codec 0).counter).map fun i =>
        it.curPktSlice.peek ReceptionReportBlock.codec (8 + i * 24))) := by
  obtain ⟨hget, hblk⟩ := getRr_ok hs hst
  have hmap := Loop.mapM_map fun i hi => hblk i (List.mem_range.mp hi)
  unfold Iterator.readPacket
  rw [hst]
  simp only [hget, ok_bind]
  rw [show (it.curPktSlice.peek ReceiverReportPacket.codec 0).header = it.curPktSlice.peek codec 0 from rfl, hmap]
  rfl

end

end

end Roc.Rtcp
