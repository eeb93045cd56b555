import RocToolkit.Rtcp.Remotes

/-!
# RocToolkit.Rtcp.Exchange

A sender and a receiver that exchange compound packets. Each of them has a reporter and a clock that runs at a
constant offset from the true time; the packets travel through two channels that lose packets and delay them
but keep their order. The compound packets are what the generation calls return: CNAME, SR and DLRR from the
sender; CNAME, reception blocks, RRTR and metrics from the receiver.
-/

namespace Roc.Rtcp

structure SenderPacket where
  chunk : SdesChunk
  item : SdesItem
  sr : SenderReportPacket
  xr : XrPacket
  dlrr : List XrDlrrSubblock

def SenderPacket.reports (p : SenderPacket) : List Report :=
  .cname p.chunk p.item :: .sr p.sr :: p.dlrr.map (.dlrrSubblock p.xr)

structure ReceiverPacket where
  chunk : SdesChunk
  item : SdesItem
  rr : ReceiverReportPacket
  blocks : List ReceptionReportBlock
  xr : XrPacket
  rrtr : XrRrtrBlock
  metrics : List (XrMeasurementInfoBlock × XrDelayMetricsBlock × XrQueueMetricsBlock)

def metricsReports (xr : XrPacket) (m : XrMeasurementInfoBlock × XrDelayMetricsBlock × XrQueueMetricsBlock) :
    List Report :=
  [.measurementInfo xr m.1, .delayMetrics xr m.2.1, .queueMetrics xr m.2.2]

def ReceiverPacket.reports (p : ReceiverPacket) : List Report :=
  .cname p.chunk p.item :: (p.blocks.map (.receptionBlock p.rr.ssrc) ++
    .rrtr p.xr p.rrtr :: p.metrics.flatMap (metricsReports p.xr))

namespace Reporter

variable {π : Type} (P : Participant π)

def reportAsSender (s : Reporter π) (time : Int) (targets : List (Nat × Nat)) :
    Except Fault (Option SenderPacket × Reporter π) := do
  let (code, s) ← s.beginGeneration P time
  if code ≠ .ok then return (none, s)
  let (sr, s) ← s.generateSr P
  let xr ← s.generateXr P
  let dlrr ← targets.mapM fun target => s.generateDlrrSubblock P target.1 target.2
  let (chunk, item) ← s.generateCname
  let (_, s) ← s.endGeneration P
  return (some ⟨chunk, item, sr, xr, dlrr⟩, s)

def receptionBlocks : List (Nat × Nat) → Reporter π → Except Fault (List ReceptionReportBlock × Reporter π)
  | [], s => .ok ([], s)
  | target :: targets, s => do
    let (blk, s) ← s.generateReceptionBlock P target.1 target.2
    let (blocks, s) ← receptionBlocks targets s
    return (blk :: blocks, s)

def reportAsReceiver (s : Reporter π) (time : Int) (targets : List (Nat × Nat)) :
    Except Fault (Option ReceiverPacket × Reporter π) := do
  let (code, s) ← s.beginGeneration P time
  if code ≠ .ok then return (none, s)
  let (rr, s) ← s.generateRr
  let (blocks, s) ← receptionBlocks P targets s
  let xr ← s.generateXr P
  let rrtr ← s.generateRrtrBlock P
  let metrics ← targets.mapM fun target => do
    return (← s.generateMeasurementInfoBlock P target.1 target.2,
      ← s.generateDelayMetricsBlock P target.1 target.2, ← s.generateQueueMetricsBlock P target.1 target.2)
  let (chunk, item) ← s.generateCname
  let (_, s) ← s.endGeneration P
  return (some ⟨chunk, item, rr, blocks, xr, rrtr, metrics⟩, s)

/-- A packet is processed, or dropped because processing could not begin. -/
def hear (s : Reporter π) (addr : SocketAddr) (time : Int) (reports : List Report) :
    Except Fault (Bool × Reporter π) := do
  let (code, s) ← s.beginProcessing P addr time
  if code ≠ .ok then return (false, s)
  let s ← reports.foldlM (process P) s
  let (_, s) ← s.endProcessing P
  return (true, s)

end Reporter

/-! ## The exchange -/

structure Sent (α : Type) where
  time : Int
  packet : α

structure Delivery where
  sent : Int
  arrived : Int

structure Exchange (π : Type) where
  now : Int
  sender : Reporter π
  receiver : Reporter π
  forward : List (Sent SenderPacket) := []
  backward : List (Sent ReceiverPacket) := []
  -- history: the packets that were processed, and the true times of the last SR and RR
  out : List Delivery := []
  back : List Delivery := []
  lastSr : Int := 0
  lastRr : Int := 0

namespace Exchange

variable {π : Type}

inductive Event (π : Type) where
  | wait (time : Nat)
  | senderChanges (participant : π)
  | receiverChanges (participant : π)
  | senderReports (targets : List (Nat × Nat))
  | receiverReports (targets : List (Nat × Nat))
  | senderHears (addr : SocketAddr)
  | receiverHears (addr : SocketAddr)
  | forwardLoses
  | backwardLoses

structure Clocks where
  sender : Int
  receiver : Int

def step (P : Participant π) (clocks : Clocks) (w : Exchange π) : Event π → Except Fault (Exchange π)
  | .wait time => .ok { w with now := w.now + time }
  | .senderChanges participant => .ok { w with sender := { w.sender with participant } }
  | .receiverChanges participant => .ok { w with receiver := { w.receiver with participant } }
  | .senderReports targets => do
    match ← w.sender.reportAsSender P (w.now + clocks.sender) targets with
    | (none, s) => return { w with sender := s }
    | (some packet, s) =>
      return { w with sender := s, forward := w.forward ++ [⟨w.now, packet⟩], lastSr := w.now }
  | .receiverReports targets => do
    match ← w.receiver.reportAsReceiver P (w.now + clocks.receiver) targets with
    | (none, s) => return { w with receiver := s }
    | (some packet, s) =>
      return { w with receiver := s, backward := w.backward ++ [⟨w.now, packet⟩], lastRr := w.now }
  | .senderHears addr =>
    match w.backward with
    | [] => .ok w
    | p :: backward => do
      let (heard, s) ← w.sender.hear P addr (w.now + clocks.sender) p.packet.reports
      return { w with sender := s, backward := backward
                      back := if heard then ⟨p.time, w.now⟩ :: w.back else w.back }
  | .receiverHears addr =>
    match w.forward with
    | [] => .ok w
    | p :: forward => do
      let (heard, s) ← w.receiver.hear P addr (w.now + clocks.receiver) p.packet.reports
      return { w with receiver := s, forward := forward
                      out := if heard then ⟨p.time, w.now⟩ :: w.out else w.out }
  | .forwardLoses => .ok { w with forward := w.forward.tail }
  | .backwardLoses => .ok { w with backward := w.backward.tail }

def Step (P : Participant π) (clocks : Clocks) (w : Exchange π) (e : Event π) (w' : Exchange π) : Prop :=
  w.step P clocks e = .ok w'

def Initial (P : Participant π) (w : Exchange π) : Prop :=
  Reporter.Initial P w.sender ∧ Reporter.Initial P w.receiver ∧ w.forward = [] ∧ w.backward = [] ∧
    w.out = [] ∧ w.back = []

end Exchange
end Roc.Rtcp
