import RocToolkit.Rtcp.Headers
import RocToolkit.Rtcp.Ntp

/-!
# RocToolkit.Rtcp.Reports

The reports that the reporter exchanges with the local pipeline, the estimators it keeps for every
stream, and `IParticipant`, the interface of the pipeline. A participant is a record of functions over
a state of its own, so that everything about the reporter holds for every pipeline; a callback that
panics faults the caller.
-/

namespace Roc

inductive StatusCode where
  | ok | unknown | noData | noMem | noSpace | limit | conflict
deriving DecidableEq, Repr

inductive SocketAddr where
  | unspecified
  | ipv4 (host : UInt32) (port : UInt16)
  | ipv6 (host : BitVec 128) (port : UInt16)
deriving DecidableEq, Repr

namespace Rtcp

/-! ## Reports -/

/-- `sender_cname` is `none` for NULL. -/
structure SendReport where
  senderCname : Option CString := none
  senderSourceId : UInt32 := 0
  reportTimestamp : Int := 0
  streamTimestamp : UInt32 := 0
  sampleRate : Nat := 0
  packetCount : UInt64 := 0
  byteCount : UInt64 := 0
  clockOffset : Int := 0
  rtt : Int := 0
deriving DecidableEq, Repr

structure RecvReport where
  receiverCname : Option CString := none
  receiverSourceId : UInt32 := 0
  senderSourceId : UInt32 := 0
  reportTimestamp : Int := 0
  sampleRate : Nat := 0
  extFirstSeqnum : UInt32 := 0
  extLastSeqnum : UInt32 := 0
  packetCount : UInt64 := 0
  cumLoss : Int := 0
  jitter : Int := 0
  niqLatency : Int := 0
  niqStalling : Int := 0
  e2eLatency : Int := 0
  clockOffset : Int := 0
  rtt : Int := 0
deriving DecidableEq, Repr

/-! ## Estimators -/

structure RttMetrics where
  clockOffset : Int := 0
  rtt : Int := 0
deriving DecidableEq, Repr

/-- The configured interval is stored by the source and not used. -/
structure RttEstimator where
  metrics : RttMetrics := {}
  hasMetrics : Bool := false
  firstReportTs : Int := 0
  lastReportTs : Int := 0
deriving DecidableEq, Repr

def RttEstimator.update (e : RttEstimator)
    (localReportTs remoteReportTs remoteReplyTs localReplyTs : Int) : RttEstimator :=
  if ¬ localReportTs ≤ localReplyTs ∨ ¬ remoteReportTs ≤ remoteReplyTs then e
  else if localReportTs ≤ e.lastReportTs then e
  else
    let clockOffset := ((remoteReportTs - localReportTs) + (remoteReplyTs - localReplyTs)).tdiv 2
    let rtt := (localReplyTs - localReportTs) - (remoteReplyTs - remoteReportTs)
    if rtt < 0 then e
    else
      { metrics := ⟨clockOffset, rtt⟩
        hasMetrics := true
        firstReportTs := if e.firstReportTs = 0 then localReportTs else e.firstReportTs
        lastReportTs := localReportTs }

structure PacketCounter where
  firstUpdate : Bool := true
  begin64 : UInt64 := 0
  end64Hi : UInt64 := 0
  end64Lo : UInt32 := 0
  counter : UInt64 := 0
deriving DecidableEq, Repr

def PacketCounter.update (c : PacketCounter) (first last : UInt32) : PacketCounter :=
  let c := if c.firstUpdate ∨ first.toUInt64 ≠ c.begin64 then
      { c with begin64 := first.toUInt64, end64Hi := 0, end64Lo := last, firstUpdate := false }
    else c
  let c := if (last - c.end64Lo).toBitVec.toInt > 0 then
      { c with end64Hi := if last < c.end64Lo then c.end64Hi + 0xFFFFFFFF else c.end64Hi,
               end64Lo := last }
    else c
  if c.begin64 ≤ c.end64Hi + c.end64Lo.toUInt64 then
    { c with counter := c.end64Hi + c.end64Lo.toUInt64 - c.begin64 }
  else c

structure LossEstimator where
  prevTotal : UInt64 := 0
  prevLost : Int := 0
deriving DecidableEq, Repr

def LossEstimator.update (e : LossEstimator) (totalPackets : UInt64) (lostPackets : Int) : Float32 × LossEstimator :=
  let fractLoss := if totalPackets > e.prevTotal then
      Float32.ofInt (lostPackets - e.prevLost) / Float32.ofNat (totalPackets - e.prevTotal).toNat
    else 0
  (if fractLoss < 0 then 0 else fractLoss, ⟨totalPackets, lostPackets⟩)

/-! ## Reception report block -/

namespace ReceptionReportBlock

def reset : ReceptionReportBlock := ⟨0, 0, 0, 0, 0, 0⟩

def setFractLoss (b : ReceptionReportBlock) (fractLoss : Float32) : ReceptionReportBlock :=
  let fractLoss := if fractLoss > 1 then 1 else fractLoss
  let fractLoss := if fractLoss < 0 then 0 else fractLoss
  let fractLoss8 : UInt32 := (fractLoss * 256).toUInt32
  let fractLoss8 : UInt32 := if fractLoss8 > 0xFF then 0xFF else fractLoss8
  { b with losses := (b.losses &&& (0x00FFFFFF : UInt32)) ||| (fractLoss8 <<< (24 : UInt32)) }

def cumLoss (b : ReceptionReportBlock) : Int := ((b.losses.toBitVec.setWidth 24).signExtend 64).toInt

def setCumLoss (b : ReceptionReportBlock) (cumLoss : Int) : ReceptionReportBlock :=
  let cumLoss := if cumLoss > 0x7FFFFF then 0x7FFFFF
    else if cumLoss < -0x7FFFFF - 1 then -0x7FFFFF - 1 else cumLoss
  let bits := UInt32.ofBitVec (BitVec.ofInt 32 cumLoss)
  { b with losses := (b.losses &&& (0xFF000000 : UInt32)) ||| (bits &&& (0x00FFFFFF : UInt32)) }

end ReceptionReportBlock

/-! ## Participant -/

inductive ReportMode where
  | toAddress | back
deriving DecidableEq, Repr

structure ParticipantInfo where
  cname : Option CString := none
  sourceId : UInt32 := 0
  reportMode : ReportMode := .toAddress
  reportAddress : SocketAddr := .unspecified
deriving DecidableEq, Repr

/-- `IParticipant`. Methods that change the participant return its new state. -/
structure Participant (π : Type) where
  participantInfo : π → ParticipantInfo
  changeSourceId : π → π
  hasSendStream : π → Bool
  querySendStream : π → (reportTime : Int) → SendReport
  notifySendStream : π → (recvSourceId : UInt32) → RecvReport → Except Fault (StatusCode × π)
  numRecvStreams : π → Nat
  queryRecvStreams : π → (nReports : Nat) → (reportTime : Int) → List RecvReport
  notifyRecvStream : π → (sendSourceId : UInt32) → SendReport → Except Fault (StatusCode × π)
  haltRecvStream : π → (sendSourceId : UInt32) → π

/-- The data of a participant that sends one stream or none and receives from the given senders. -/
structure Peer where
  info : ParticipantInfo
  sends : Bool
  receives : List UInt32
deriving DecidableEq, Repr

def Peer.participant : Participant Peer where
  participantInfo peer := peer.info
  changeSourceId peer := { peer with info := { peer.info with sourceId := peer.info.sourceId + 1 } }
  hasSendStream peer := peer.sends
  querySendStream peer reportTime :=
    { senderCname := peer.info.cname, senderSourceId := peer.info.sourceId
      reportTimestamp := reportTime, sampleRate := 44100 }
  notifySendStream peer _ _ := .ok (.ok, peer)
  numRecvStreams peer := peer.receives.length
  queryRecvStreams peer nReports reportTime := (peer.receives.take nReports).map fun ssrc =>
    { receiverCname := peer.info.cname, receiverSourceId := peer.info.sourceId
      senderSourceId := ssrc, reportTimestamp := reportTime, sampleRate := 44100 }
  notifyRecvStream peer _ _ := .ok (.ok, peer)
  haltRecvStream peer _ := peer

end Rtcp
end Roc
