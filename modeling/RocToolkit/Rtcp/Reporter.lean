import RocToolkit.Lib.Loop
import RocToolkit.Lib.LruTable
import RocToolkit.Rtcp.Builder
import RocToolkit.Rtcp.Reports

/-!
# RocToolkit.Rtcp.Reporter

`rtcp::Reporter`. The streams and the destination addresses are tables with an LRU list. A raw pointer
to a stream is its key together with the number it was created with, so a pointer to a removed stream
finds nothing even if its SSRC is in use again; a pointer into `local_recv_reports_` names the memory
block and the element. Allocations take their outcome from `arena`.
-/

namespace Roc.Rtcp

/-! ## State -/

/-- A string that fits into `char[MaxCnameLen + 1]`. -/
@[ext]
structure Cname where
  text : CString
  fits : text.length ≤ maxTextLen
deriving DecidableEq, Repr

def Cname.empty : Cname := ⟨.empty, Nat.zero_le _⟩

structure StreamPtr where
  sourceId : UInt32
  id : Nat
deriving DecidableEq, Repr

structure ReportPtr where
  block : Nat
  index : Nat
deriving DecidableEq, Repr

structure RemoteState where
  hasRemoteRecvReport : Bool := false
  remoteRecvReport : RecvReport := {}
  remoteRecvRtt : RttEstimator := {}
  remoteRecvPacketCount : PacketCounter := {}
  hasRemoteSendReport : Bool := false
  -- `sender_cname` and `receiver_cname` point to `cname` of the stream itself, so they are filled in
  -- where a report leaves the reporter
  remoteSendReport : SendReport := {}
  remoteSendRtt : RttEstimator := {}
  remoteSendPacketCount : PacketCounter := {}
  remoteSendByteCount : PacketCounter := {}
  remoteAddress : SocketAddr := .unspecified
  lastLocalSr : Int := 0
  lastRemoteRr : Int := 0
  lastRemoteRrNtp : UInt64 := 0
  lastRemoteDlsr : Int := 0
  lastLocalRr : Int := 0
  lastRemoteSr : Int := 0
  lastRemoteSrNtp : UInt64 := 0
  lastRemoteDlrr : Int := 0
deriving DecidableEq, Repr

/-- `Reporter::Stream`; its SSRC is the key in the table. -/
structure Stream extends RemoteState where
  id : Nat
  cname : Cname := .empty
  localRecvReport : Option ReportPtr := none
  localRecvLoss : LossEstimator := {}
  lastUpdate : Int
  isLooped : Bool := false
deriving DecidableEq, Repr

/-- `Reporter::Address`; the remote address is the key in the table. -/
structure Address where
  sendStreamIndex : List StreamPtr := []
  recvStreamIndex : List StreamPtr := []
  lastRebuild : Int
deriving DecidableEq, Repr

def Address.listSend (ptr : StreamPtr) (address : Address) : Address :=
  { address with sendStreamIndex := address.sendStreamIndex ++ [ptr] }

def Address.listRecv (ptr : StreamPtr) (address : Address) : Address :=
  { address with recvStreamIndex := address.recvStreamIndex ++ [ptr] }

/-- `local_recv_reports_`: growing beyond the capacity moves the elements to another block. -/
structure ReportArray where
  items : List RecvReport := []
  capacity : Nat := 8
  block : Nat := 0
deriving DecidableEq, Repr

inductive ReportState where
  | idle | processing | generating
deriving DecidableEq, Repr

inductive CreateMode where
  | autoCreate | noAutoCreate
deriving DecidableEq, Repr

/-- A call of `notify_send_stream` or `notify_recv_stream`. -/
inductive Notice where
  | sendStream (recvSourceId : UInt32) (report : RecvReport)
  | recvStream (sendSourceId : UInt32) (report : SendReport)
deriving DecidableEq, Repr

structure Reporter (π : Type) where
  config : Config
  participant : π
  participantReportMode : ReportMode
  participantReportAddr : SocketAddr
  localCname : Cname
  localCname_ne : localCname.text.length ≠ 0
  localSourceId : UInt32
  hasLocalSendReport : Bool := false
  localSendReport : SendReport := {}
  localRecvReports : ReportArray := {}
  streams : LruTable UInt32 Stream := .empty
  nextStream : Nat := 0
  addresses : LruTable SocketAddr Address := .empty
  addressIndex : List SocketAddr := []
  needRebuildIndex : Bool := true
  currentSr : Int := 0
  currentRr : Int := 0
  collisionDetected : Bool := false
  collisionReported : Bool := false
  reportState : ReportState := .idle
  reportError : StatusCode := .ok
  reportAddr : SocketAddr := .unspecified
  reportTime : Int := 0
  arena : List Bool := []
  -- history: the notifications of the current or last processing
  notices : List Notice := []

namespace Reporter

variable {π : Type}

/-- `Reporter::Reporter`; `none` if it is not valid. -/
def new (P : Participant π) (config : Config) (participant : π) (arena : List Bool) : Option (Reporter π) :=
  let info := P.participantInfo participant
  match info.cname with
  | none => none
  | some cname =>
    if hne : cname.length = 0 then none
    else if hfit : cname.length ≤ maxTextLen then
      some { config, participant, participantReportMode := info.reportMode,
             participantReportAddr := info.reportAddress, localCname := ⟨cname, hfit⟩,
             localCname_ne := hne, localSourceId := info.sourceId, arena }
    else none

def requireState (s : Reporter π) (state : ReportState) : Except Fault Unit :=
  if s.reportState ≠ state then .error (.panic "rtcp reporter: invalid call order") else .ok ()

def alloc (s : Reporter π) : Bool × Reporter π :=
  match s.arena with
  | [] => (true, s)
  | outcome :: arena => (outcome, { s with arena })

/-! ## Streams -/

/-- `find_stream_`. -/
def findStream (s : Reporter π) (ssrc : UInt32) (mode : CreateMode) : Option Stream × Reporter π :=
  match s.streams.find ssrc with
  | some stream => (some stream, s)
  | none =>
    match mode with
    | .noAutoCreate => (none, s)
    | .autoCreate =>
      let (allocated, s) := s.alloc
      if !allocated then (none, { s with reportError := .noMem })
      else
        let stream : Stream := { id := s.nextStream, lastUpdate := s.reportTime }
        (some stream, { s with streams := s.streams.insert ssrc stream
                               nextStream := s.nextStream + 1
                               needRebuildIndex := true })

/-- `remove_stream_`. -/
def removeStream (s : Reporter π) (ssrc : UInt32) : Reporter π :=
  { s with streams := s.streams.remove ssrc, needRebuildIndex := true }

def modifyStream (s : Reporter π) (ssrc : UInt32) (f : Stream → Stream) : Reporter π :=
  { s with streams := s.streams.modify ssrc f }

/-- `update_stream_`. -/
def updateStream (s : Reporter π) (ssrc : UInt32) : Reporter π :=
  match s.streams.find ssrc with
  | none => s
  | some stream =>
    if stream.lastUpdate = s.reportTime then s
    else
      { s with streams := (s.streams.modify ssrc fun stream =>
          { stream with lastUpdate := s.reportTime }).touch ssrc }

/-- `detect_collision_`. -/
def detectCollision (s : Reporter π) (ssrc : UInt32) : Reporter π :=
  if s.collisionDetected then s
  else if ssrc ≠ s.localSourceId then s
  else
    match s.streams.find ssrc with
    | none => { s with collisionDetected := true, collisionReported := false }
    | some stream =>
      if stream.isLooped then s
      -- same SSRC and CNAME: our own stream, looped back
      else if stream.cname = s.localCname then
        s.modifyStream ssrc fun stream => { stream with isLooped := true }
      else { s with collisionDetected := true, collisionReported := false }

/-- Store what a report changed, and ask for a new index if `rebuild`. -/
def setRemote (s : Reporter π) (ssrc : UInt32) (remote : RemoteState) (rebuild : Bool) : Reporter π :=
  { s.modifyStream ssrc fun stream => { stream with toRemoteState := remote } with
    needRebuildIndex := s.needRebuildIndex || rebuild }

/-! ## Processing -/

/-- The common shape of the handlers of SR, reception blocks and XR blocks: they look for a collision
of `ssrc`, the originator of the packet, drop a report that is not `accepted`, find the stream, drop
the report if the stream is not `ready` for it, and store what `f` makes of the stream. -/
def processReport (s : Reporter π) (ssrc : UInt32) (accepted : Bool) (mode : CreateMode)
    (ready : RemoteState → Bool) (f : RemoteState → Except Fault (RemoteState × Bool)) :
    Except Fault (Reporter π) := do
  s.requireState .processing
  let s := s.detectCollision ssrc
  if !accepted then return s
  match s.findStream ssrc mode with
  | (none, s) => return s
  | (some stream, s) =>
    if !ready stream.toRemoteState then return s
    let (remote, rebuild) ← f stream.toRemoteState
    return (s.setRemote ssrc remote rebuild).updateStream ssrc

/-- `process_sr`, on the stream. -/
def applySr (s : Reporter π) (sr : SenderReportPacket) (r : RemoteState) : RemoteState × Bool :=
  let packetCount := r.remoteSendPacketCount.update 0 sr.packetCnt
  let byteCount := r.remoteSendByteCount.update 0 sr.bytesCnt
  ({ r with
      hasRemoteSendReport := true
      remoteSendReport := { r.remoteSendReport with
        senderSourceId := sr.ssrc
        reportTimestamp := Packet.ntp2Unix sr.ntpTimestamp
        streamTimestamp := sr.rtpTimestamp
        packetCount := packetCount.counter
        byteCount := byteCount.counter }
      remoteSendPacketCount := packetCount
      remoteSendByteCount := byteCount
      remoteAddress := s.reportAddr
      lastRemoteSr := s.reportTime
      lastRemoteSrNtp := sr.ntpTimestamp },
   !r.hasRemoteSendReport || r.remoteAddress != s.reportAddr)

def processSr (s : Reporter π) (sr : SenderReportPacket) : Except Fault (Reporter π) :=
  s.processReport sr.ssrc true .autoCreate (fun _ => true) fun r => .ok (s.applySr sr r)

def storeDlsr (s : Reporter π) (blk : ReceptionReportBlock) (r : RemoteState) : Except Fault RemoteState := do
  if s.currentSr = 0 then return r
  let lastSr ← ntpExtend (← Packet.unix2Ntp s.currentSr) (ntp32Value blk.lastSr)
  return { r with lastLocalSr := Packet.ntp2Unix lastSr
                  lastRemoteDlsr := Packet.ntp2Nanoseconds (ntp32Value blk.delayLastSr) }

/-- `process_reception_block`, on the stream. -/
def applyReceptionBlock (s : Reporter π) (ssrc : UInt32) (blk : ReceptionReportBlock)
    (r : RemoteState) : Except Fault (RemoteState × Bool) := do
  let jitter ← Packet.streamTimestamp2Ns blk.jitter s.localSendReport.sampleRate
  let remote ← s.storeDlsr blk { r with
    hasRemoteRecvReport := true
    remoteRecvReport := { r.remoteRecvReport with
      receiverSourceId := ssrc
      senderSourceId := s.localSourceId
      cumLoss := blk.cumLoss
      extLastSeqnum := blk.lastSeq
      jitter }
    remoteAddress := s.reportAddr }
  return (remote, !r.hasRemoteRecvReport || r.remoteAddress != s.reportAddr)

def processReceptionBlock (s : Reporter π) (ssrc : UInt32) (blk : ReceptionReportBlock) : Except Fault (Reporter π) :=
  s.processReport ssrc (s.hasLocalSendReport && blk.ssrc == s.localSourceId) .autoCreate
    (fun _ => true) (s.applyReceptionBlock ssrc blk)

def storeDlrr (s : Reporter π) (blk : XrDlrrSubblock) (r : RemoteState) : Except Fault RemoteState := do
  if s.currentRr = 0 then return r
  let lastRr ← ntpExtend (← Packet.unix2Ntp s.currentRr) (ntp32Value blk.lastRr)
  return { r with lastLocalRr := Packet.ntp2Unix lastRr
                  lastRemoteDlrr := Packet.ntp2Nanoseconds (ntp32Value blk.delayLastRr) }

def updateSendRtt (r : RemoteState) : RemoteState :=
  if r.lastLocalRr ≠ 0 ∧ r.lastRemoteSr ≠ 0 then
    let sent := r.remoteSendReport.reportTimestamp
    let rtt := r.remoteSendRtt.update r.lastLocalRr (sent - r.lastRemoteDlrr) sent r.lastRemoteSr
    let report := if rtt.hasMetrics then
        { r.remoteSendReport with clockOffset := rtt.metrics.clockOffset, rtt := rtt.metrics.rtt }
      else r.remoteSendReport
    { r with remoteSendRtt := rtt, remoteSendReport := report }
  else r

/-- `process_dlrr_subblock`, on the stream. -/
def applyDlrrSubblock (s : Reporter π) (blk : XrDlrrSubblock) (r : RemoteState) :
    Except Fault (RemoteState × Bool) := do
  return (updateSendRtt (← s.storeDlrr blk r), false)

def processDlrrSubblock (s : Reporter π) (xr : XrPacket) (blk : XrDlrrSubblock) : Except Fault (Reporter π) :=
  s.processReport xr.ssrc (blk.ssrc == s.localSourceId) .noAutoCreate (·.hasRemoteSendReport) (s.applyDlrrSubblock blk)

def updateRecvRtt (r : RemoteState) : RemoteState :=
  if r.lastLocalSr ≠ 0 ∧ r.lastRemoteRr ≠ 0 then
    let sent := r.remoteRecvReport.reportTimestamp
    let rtt := r.remoteRecvRtt.update r.lastLocalSr (sent - r.lastRemoteDlsr) sent r.lastRemoteRr
    let report := if rtt.hasMetrics then
        { r.remoteRecvReport with clockOffset := rtt.metrics.clockOffset, rtt := rtt.metrics.rtt }
      else r.remoteRecvReport
    { r with remoteRecvRtt := rtt, remoteRecvReport := report }
  else r

/-- `process_rrtr_block`, on the stream. -/
def applyRrtrBlock (s : Reporter π) (blk : XrRrtrBlock) (r : RemoteState) : RemoteState := updateRecvRtt { r with
    remoteRecvReport := { r.remoteRecvReport with
      reportTimestamp := Packet.ntp2Unix blk.ntpTimestamp }
    lastRemoteRr := s.reportTime
    lastRemoteRrNtp := blk.ntpTimestamp }

def processRrtrBlock (s : Reporter π) (xr : XrPacket) (blk : XrRrtrBlock) : Except Fault (Reporter π) :=
  s.processReport xr.ssrc true .noAutoCreate (·.hasRemoteRecvReport) fun r =>
    .ok (s.applyRrtrBlock blk r, false)

def processReceiverBlock (s : Reporter π) (xr : XrPacket) (sendSourceId : UInt32)
    (f : RemoteState → RemoteState) : Except Fault (Reporter π) :=
  s.processReport xr.ssrc (sendSourceId == s.localSourceId) .noAutoCreate (·.hasRemoteRecvReport)
    fun r => .ok (f r, false)

/-- `process_measurement_info_block`, on the stream. -/
def applyMeasurementInfoBlock (blk : XrMeasurementInfoBlock) (r : RemoteState) : RemoteState :=
  let first := blk.firstSeq.toUInt32
  let count := r.remoteRecvPacketCount.update first (r.remoteRecvReport.extLastSeqnum + 1)
  { r with
    remoteRecvReport := { r.remoteRecvReport with
      extFirstSeqnum := first, packetCount := count.counter }
    remoteRecvPacketCount := count }

def processMeasurementInfoBlock (s : Reporter π) (xr : XrPacket) (blk : XrMeasurementInfoBlock) :
    Except Fault (Reporter π) :=
  s.processReceiverBlock xr blk.ssrc (applyMeasurementInfoBlock blk)

/-- `process_delay_metrics_block`, on the stream. -/
def applyDelayMetricsBlock (blk : XrDelayMetricsBlock) (r : RemoteState) : RemoteState :=
  let report := r.remoteRecvReport
  let report := if blk.e2eLatency ≠ metricUnavail64 then
      { report with e2eLatency := Packet.ntp2Nanoseconds blk.e2eLatency }
    else report
  { r with remoteRecvReport := report }

def processDelayMetricsBlock (s : Reporter π) (xr : XrPacket) (blk : XrDelayMetricsBlock) : Except Fault (Reporter π) :=
  s.processReceiverBlock xr blk.ssrc (applyDelayMetricsBlock blk)

/-- `process_queue_metrics_block`, on the stream. -/
def applyQueueMetricsBlock (blk : XrQueueMetricsBlock) (r : RemoteState) : RemoteState :=
  let report := r.remoteRecvReport
  let report := if ntp32Value blk.niqLatency ≠ metricUnavail32 then
      { report with niqLatency := Packet.ntp2Nanoseconds (ntp32Value blk.niqLatency) }
    else report
  let report := if ntp32Value blk.niqStalling ≠ metricUnavail32 then
      { report with niqStalling := Packet.ntp2Nanoseconds (ntp32Value blk.niqStalling) }
    else report
  { r with remoteRecvReport := report }

def processQueueMetricsBlock (s : Reporter π) (xr : XrPacket) (blk : XrQueueMetricsBlock) : Except Fault (Reporter π) :=
  s.processReceiverBlock xr blk.ssrc (applyQueueMetricsBlock blk)

def haltRecvStream (P : Participant π) (s : Reporter π) (ssrc : UInt32) : Reporter π :=
  { s with participant := P.haltRecvStream s.participant ssrc }

/-- The end of `process_cname`: `strcpy` into the stream, and what follows it. -/
def storeCname (s : Reporter π) (ssrc : UInt32) (text : CString) : Except Fault (Reporter π) :=
  if hfit : text.length ≤ maxTextLen then
    let s := { s.modifyStream ssrc fun stream => { stream with cname := ⟨text, hfit⟩ } with
      needRebuildIndex := true }
    .ok ((s.detectCollision ssrc).updateStream ssrc)
  else .error .outOfBounds

def processCname (P : Participant π) (s : Reporter π) (chunk : SdesChunk) (item : SdesItem) :
    Except Fault (Reporter π) := do
  s.requireState .processing
  if item.text.length = 0 then return s
  match s.findStream chunk.ssrc .autoCreate with
  | (none, s) => return s
  | (some stream, s) =>
    if stream.cname.text = item.text then return s
    if stream.cname.text.length = 0 then s.storeCname chunk.ssrc item.text
    else
      -- the CNAME changed, the stream is created anew
      match ((s.haltRecvStream P chunk.ssrc).removeStream chunk.ssrc).findStream chunk.ssrc
          .autoCreate with
      | (none, s) => return s
      | (some _, s) => s.storeCname chunk.ssrc item.text

def processGoodbye (P : Participant π) (s : Reporter π) (ssrc : UInt32) : Except Fault (Reporter π) := do
  s.requireState .processing
  match s.findStream ssrc .noAutoCreate with
  | (none, s) => return s.haltRecvStream P ssrc
  | (some _, s) => return (s.removeStream ssrc).haltRecvStream P ssrc

/-- One round of the loop of `detect_timeouts_`, at the back of the LRU list. -/
def timeoutRound (P : Participant π) (s : Reporter π) : Loop.Round (Reporter π) :=
  match s.streams.lru.getLast? with
  | none => .leave s
  | some ssrc =>
    match s.streams.find ssrc with
    | none => .leave s
    | some stream =>
      if stream.lastUpdate > s.reportTime - s.config.inactivityTimeout then .leave s
      -- known from RTP only, there is nothing to time out
      else if !stream.hasRemoteRecvReport && !stream.hasRemoteSendReport then
        .again (s.updateStream ssrc)
      else .again ((s.haltRecvStream P ssrc).removeStream ssrc)

/-- `detect_timeouts_`. With a positive timeout every round takes one stream out of the way. -/
def detectTimeouts (P : Participant π) (s : Reporter π) : Except Fault (Reporter π) :=
  Loop.repeatUntil (fun s => .ok (s.timeoutRound P)) .outOfFuel (s.streams.lru.length + 1) s

/-! ## Notifications -/

def notifySendStream (P : Participant π) (s : Reporter π) (ssrc : UInt32) (stream : Stream) :
    Except Fault (StatusCode × Reporter π) :=
  let report := { stream.remoteRecvReport with receiverCname := some stream.cname.text }
  match P.notifySendStream s.participant ssrc report with
  | .error fault => .error (.callback fault)
  | .ok (code, participant) =>
    .ok (code, { s with participant := participant
                        notices := s.notices ++ [.sendStream ssrc report] })

def notifyRecvStream (P : Participant π) (s : Reporter π) (ssrc : UInt32) (stream : Stream) :
    Except Fault (StatusCode × Reporter π) :=
  let report := { stream.remoteSendReport with senderCname := some stream.cname.text }
  match P.notifyRecvStream s.participant ssrc report with
  | .error fault => .error (.callback fault)
  | .ok (code, participant) =>
    .ok (code, { s with participant := participant
                        notices := s.notices ++ [.recvStream ssrc report] })

def notifyStream (P : Participant π) (isSending : Bool) (s : Reporter π) (ssrc : UInt32)
    (stream : Stream) : Except Fault (StatusCode × Reporter π) := do
  let sent := if stream.hasRemoteRecvReport && isSending then s.notifySendStream P ssrc stream
    else .ok (.ok, s)
  let (code, s) ← sent
  if code ≠ .ok then return (code, s)
  if stream.hasRemoteSendReport then s.notifyRecvStream P ssrc stream else return (.ok, s)

/-- The loop of `notify_streams_` over the rest of the LRU list. -/
def notifyFrom (P : Participant π) (isSending : Bool) :
    List UInt32 → Reporter π → Except Fault (StatusCode × Reporter π)
  | [], s => .ok (.ok, s)
  | ssrc :: rest, s =>
    match s.streams.find ssrc with
    | none => .ok (.ok, s)
    | some stream =>
      if stream.lastUpdate ≠ s.reportTime then .ok (.ok, s)
      else if stream.isLooped then notifyFrom P isSending rest s
      else
        match notifyStream P isSending s ssrc stream with
        | .error fault => .error fault
        | .ok (.ok, s) => notifyFrom P isSending rest s
        | .ok (code, s) => .ok (code, s)

def notifyStreams (P : Participant π) (s : Reporter π) : Except Fault (StatusCode × Reporter π) :=
  if s.reportTime = 0 then .ok (.ok, s)
  else notifyFrom P (P.hasSendStream s.participant) s.streams.lru s

def endProcessing (P : Participant π) (s : Reporter π) : Except Fault (StatusCode × Reporter π) := do
  s.requireState .processing
  let s ← s.detectTimeouts P
  let (code, s) ← s.notifyStreams P
  let s := { s with reportState := .idle }
  if code ≠ .ok then return (code, s)
  return (s.reportError, s)

/-! ## Queries -/

def validateSendReport (s : Reporter π) (report : SendReport) : Except Fault Unit := do
  let invalid why := Fault.panic ("rtcp reporter: query returned invalid sender report: " ++ why)
  if report.senderSourceId ≠ s.localSourceId then
    throw (invalid "sender SSRC should be same returned by source_id()")
  if report.senderCname = none then throw (invalid "CNAME is null")
  if report.senderCname ≠ some s.localCname.text then
    throw (invalid "CNAME should be same as returned by cname()")
  if report.reportTimestamp ≠ s.reportTime then
    throw (invalid "report timestamp should be same as passed to method")
  if report.sampleRate = 0 then throw (invalid "sample rate should be set to non-zero value")
  if report.clockOffset ≠ 0 ∨ report.rtt ≠ 0 then
    throw (invalid "clock_offset and rtt are read-only fields and should not be set")

def validateRecvReport (s : Reporter π) (report : RecvReport) : Except Fault Unit := do
  let invalid why := Fault.panic ("rtcp reporter: query returned invalid receiver report: " ++ why)
  if report.receiverSourceId ≠ s.localSourceId then
    throw (invalid "SSRC should be same for all local sending and receiving streams")
  if report.reportTimestamp ≠ s.reportTime then
    throw (invalid "report timestamp should be same as passed to method")
  if report.sampleRate = 0 then throw (invalid "sample rate should be set to non-zero value")
  if report.clockOffset ≠ 0 ∨ report.rtt ≠ 0 then
    throw (invalid "clock_offset and rtt are read-only fields and should be set to zero")

def querySendStream (P : Participant π) (s : Reporter π) : Except Fault (Reporter π) := do
  if P.hasSendStream s.participant then
    let s := { s with localSendReport := P.querySendStream s.participant s.reportTime
                      hasLocalSendReport := true }
    s.validateSendReport s.localSendReport
    return s
  else return { s with hasLocalSendReport := false }

/-- `local_recv_reports_.resize`, if the size is another one. -/
def resizeRecvReports (s : Reporter π) (count : Nat) : Bool × Reporter π :=
  let reports := s.localRecvReports
  let items := reports.items.take count ++ List.replicate (count - reports.items.length) {}
  if reports.items.length = count then (true, s)
  else if count ≤ reports.capacity then
    (true, { s with localRecvReports := { reports with items }, needRebuildIndex := true })
  else
    match s.alloc with
    | (false, s) => (false, s)
    | (true, s) =>
      (true, { s with localRecvReports := ⟨items, count, reports.block + 1⟩
                      needRebuildIndex := true })

/-- The loop of `query_streams_` over the reports it got. -/
def checkRecvReport (s : Reporter π) (report : RecvReport) : Except Fault (Reporter π) := do
  s.validateRecvReport report
  if !s.needRebuildIndex && (s.findStream report.senderSourceId .noAutoCreate).1.isNone then
    return { s with needRebuildIndex := true }
  return s

/-- The array after `query_recv_streams`: the participant writes into it and it keeps its size. -/
def writtenReports (P : Participant π) (s : Reporter π) : List RecvReport :=
  let count := s.localRecvReports.items.length
  let reports := P.queryRecvStreams s.participant count s.reportTime
  reports.take count ++ s.localRecvReports.items.drop reports.length

def queryRecvStreams (P : Participant π) (s : Reporter π) : Except Fault (Reporter π) :=
  if s.localRecvReports.items.length = 0 then .ok s
  else
    let items := s.writtenReports P
    items.foldlM checkRecvReport { s with localRecvReports := { s.localRecvReports with items } }

def queryStreams (P : Participant π) (s : Reporter π) : Except Fault (StatusCode × Reporter π) := do
  let s ← s.querySendStream P
  match s.resizeRecvReports (P.numRecvStreams s.participant) with
  | (false, s) => return (.noMem, s)
  | (true, s) => return (.ok, ← s.queryRecvStreams P)

/-! ## Index -/

/-- `find_address_` with `AutoCreate`; `false` if there is no memory. -/
def findAddress (s : Reporter π) (addr : SocketAddr) : Bool × Reporter π :=
  match s.addresses.find addr with
  | some _ => (true, s)
  | none =>
    match s.alloc with
    | (false, s) => (false, { s with reportError := .noMem })
    | (true, s) =>
      (true, { s with addresses := s.addresses.insert addr { lastRebuild := s.reportTime } })

/-- `rebuild_address_`. -/
def rebuildAddress (s : Reporter π) (addr : SocketAddr) : Reporter π :=
  match s.addresses.find addr with
  | none => s
  | some address =>
    if address.lastRebuild = s.reportTime then s
    else
      { s with addresses := (s.addresses.modify addr fun _ => { lastRebuild := s.reportTime }).touch addr }

/-- `find_address_` and `rebuild_address_`, which follow each other everywhere. -/
def useAddress (s : Reporter π) (addr : SocketAddr) : Bool × Reporter π :=
  match s.findAddress addr with
  | (false, s) => (false, s)
  | (true, s) => (true, s.rebuildAddress addr)

/-- Append to `send_stream_index` or `recv_stream_index`. -/
def pushStream (s : Reporter π) (addr : SocketAddr) (push : Address → Address) : Bool × Reporter π :=
  match s.alloc with
  | (false, s) => (false, s)
  | (true, s) => (true, { s with addresses := s.addresses.modify addr push })

def destination (s : Reporter π) (stream : Stream) : SocketAddr :=
  match s.participantReportMode with
  | .toAddress => s.participantReportAddr
  | .back => stream.remoteAddress

def indexSendStream (s : Reporter π) (entry : UInt32 × Stream) : Bool × Reporter π :=
  let (ssrc, stream) := entry
  if stream.isLooped then (true, s)
  -- without RRTR there is nothing to report to this receiver
  else if !stream.hasRemoteRecvReport || stream.remoteRecvReport.reportTimestamp == 0 then (true, s)
  else
    match s.useAddress (s.destination stream) with
    | (false, s) => (false, s)
    | (true, s) =>
      s.pushStream (s.destination stream) (Address.listSend ⟨ssrc, stream.id⟩)

def indexSendStreams (s : Reporter π) : Bool × Reporter π :=
  if !s.hasLocalSendReport then (true, s)
  else
    match s.participantReportMode with
    | .back => Loop.forEach indexSendStream s.streams.entries s
    | .toAddress =>
      -- the configured address is in the index even if no receiver is known
      match s.useAddress s.participantReportAddr with
      | (false, s) => (false, s)
      | (true, s) => Loop.forEach indexSendStream s.streams.entries s

def indexRecvStream (s : Reporter π) (entry : RecvReport × Nat) : Bool × Reporter π :=
  let (report, recvIdx) := entry
  let ssrc := report.senderSourceId
  match s.findStream ssrc .autoCreate with
  | (none, s) => (false, s)
  | (some stream, s) =>
    if stream.isLooped then (true, s)
    -- without SR it is not known where to send the report
    else if s.participantReportMode == .back && (!stream.hasRemoteSendReport ||
        stream.remoteSendReport.reportTimestamp == 0) then (true, s)
    else
      match s.useAddress (s.destination stream) with
      | (false, s) => (false, s)
      | (true, s) =>
        match s.pushStream (s.destination stream) (Address.listRecv ⟨ssrc, stream.id⟩) with
        | (false, s) => (false, s)
        | (true, s) =>
          (true, s.modifyStream ssrc fun stream =>
            { stream with localRecvReport := some ⟨s.localRecvReports.block, recvIdx⟩ })

def removeUnusedAddresses (s : Reporter π) : Reporter π :=
  { s with addresses := s.addresses.trim fun address => address.lastRebuild == s.reportTime }

/-- Addresses are removed only while `address_index_` is empty, so its pointers are the keys of the
table. -/
def fillIndex (s : Reporter π) : Reporter π :=
  { s with addressIndex := s.addresses.entries.map Prod.fst }

def clearIndex (s : Reporter π) : Reporter π := { s with addressIndex := [] }

def rebuildIndex (s : Reporter π) : Except Fault (StatusCode × Reporter π) :=
  if !s.needRebuildIndex then .error (.panic "need_rebuild_index_")
  else
    match s.clearIndex.indexSendStreams with
    | (false, s) => .ok (.noMem, s)
    | (true, s) =>
      match Loop.forEach indexRecvStream s.localRecvReports.items.zipIdx s with
      | (false, s) => .ok (.noMem, s)
      | (true, s) =>
        match s.removeUnusedAddresses.alloc with
        | (false, s) => .ok (.noMem, s)
        | (true, s) => .ok (.ok, s.fillIndex)

/-- The second half of `refresh_streams_`. -/
def rebuildIfNeeded (s : Reporter π) : Except Fault (StatusCode × Reporter π) := do
  if !s.needRebuildIndex then return (.ok, s)
  let (status, s) ← s.rebuildIndex
  if status ≠ .ok then return (status, s)
  return (.ok, { s with needRebuildIndex := false })

def refreshStreams (P : Participant π) (s : Reporter π) : Except Fault (StatusCode × Reporter π) := do
  let (status, s) ← s.queryStreams P
  if status ≠ .ok then return (status, s)
  s.rebuildIfNeeded

/-! ## Begin -/

def nextReportTime (s : Reporter π) (reportTime : Int) : Int :=
  if reportTime ≠ s.reportTime then reportTime else reportTime + 1

def enter (s : Reporter π) (state : ReportState) (reportTime : Int) : Reporter π :=
  { s with reportState := state, reportError := .ok, reportTime := s.nextReportTime reportTime }

def beginReport (P : Participant π) (s : Reporter π) (state : ReportState) (reportTime : Int) :
    Except Fault (StatusCode × Reporter π) := do
  s.requireState .idle
  if reportTime ≤ 0 then throw (.panic "rtcp reporter: invalid timestamp")
  let (status, s) ← (s.enter state reportTime).refreshStreams P
  if status ≠ .ok then return (status, { s with reportState := .idle })
  return (.ok, s)

def setReportAddr (s : Reporter π) (reportAddr : SocketAddr) : Reporter π :=
  { s with reportAddr, notices := [] }

def beginProcessing (P : Participant π) (s : Reporter π) (reportAddr : SocketAddr)
    (reportTime : Int) : Except Fault (StatusCode × Reporter π) :=
  (s.setReportAddr reportAddr).beginReport P .processing reportTime

def beginGeneration (P : Participant π) (s : Reporter π) (reportTime : Int) : Except Fault (StatusCode × Reporter π) :=
  s.beginReport P .generating reportTime

/-! ## Generation -/

section
variable (P : Participant π) (s : Reporter π)

def isSending : Bool := P.hasSendStream s.participant

def isReceiving : Bool := P.numRecvStreams s.participant != 0

/-- `address_index_[addr_index]`. -/
def addressAt (addrIndex : Nat) : Except Fault Address :=
  match s.addressIndex[addrIndex]? with
  | none => .error (.panic "array: subscript out of range")
  | some addr =>
    match s.addresses.find addr with
    | none => .error .dangling
    | some address => .ok address

def streamAt (index : List StreamPtr) (streamIndex : Nat) : Except Fault (UInt32 × Stream) :=
  match index[streamIndex]? with
  | none => .error (.panic "array: subscript out of range")
  | some ptr =>
    match s.streams.find ptr.sourceId with
    | none => .error .dangling
    | some stream => if stream.id = ptr.id then .ok (ptr.sourceId, stream) else .error .dangling

/-- `*stream->local_recv_report`. -/
def localReport (stream : Stream) : Except Fault RecvReport :=
  match stream.localRecvReport with
  | none => .error .nullPointer
  | some ptr =>
    if ptr.block ≠ s.localRecvReports.block then .error .dangling
    else
      match s.localRecvReports.items[ptr.index]? with
      | none => .error .outOfBounds
      | some report => .ok report

def generateDestAddress (addrIndex : Nat) : Except Fault SocketAddr := do
  s.requireState .generating
  match s.addressIndex[addrIndex]? with
  | none => throw (.panic "array: subscript out of range")
  | some addr => return addr

def generateCname : Except Fault (SdesChunk × SdesItem) := do
  s.requireState .generating
  return (⟨s.localSourceId⟩, ⟨SDES_CNAME, s.localCname.text⟩)

def generateSr : Except Fault (SenderReportPacket × Reporter π) := do
  s.requireState .generating
  if !s.isSending P then throw (.panic "rtcp reporter: SR can be generated only by sender")
  let sr := { SenderReportPacket.reset with
    ssrc := s.localSourceId
    ntpTimestamp := ← Packet.unix2Ntp s.reportTime
    rtpTimestamp := s.localSendReport.streamTimestamp
    packetCnt := s.localSendReport.packetCount.toUInt32
    bytesCnt := s.localSendReport.byteCount.toUInt32 }
  return (sr, { s with currentSr := s.reportTime })

def generateRr : Except Fault (ReceiverReportPacket × Reporter π) := do
  s.requireState .generating
  return ({ ReceiverReportPacket.reset with ssrc := s.localSourceId },
    { s with currentRr := s.reportTime })

/-- The guards of the blocks about a receiving stream; only the first of them checks the call order. -/
def recvStreamAt (addrIndex streamIndex : Nat) (what : String) : Except Fault (UInt32 × Stream) := do
  if !s.isReceiving P then
    throw (.panic ("rtcp reporter: " ++ what ++ " can be generated only by receiver"))
  s.streamAt (← s.addressAt addrIndex).recvStreamIndex streamIndex

def receptionBlock (ssrc : UInt32) (stream : Stream) (report : RecvReport) (fractLoss : Float32) :
    Except Fault ReceptionReportBlock := do
  let mut blk := { ReceptionReportBlock.reset with ssrc, lastSeq := report.extLastSeqnum }
  blk := (blk.setCumLoss report.cumLoss).setFractLoss fractLoss
  if report.jitter > 0 then
    blk := { blk with jitter := ← Packet.ns2StreamTimestamp report.jitter report.sampleRate }
  if stream.lastRemoteSr > 0 ∧ stream.lastRemoteSr ≤ s.reportTime then
    let delay ← Packet.nanoseconds2Ntp (s.reportTime - stream.lastRemoteSr)
    blk := { blk with lastSr := ntp32SetValue stream.lastRemoteSrNtp
                      delayLastSr := ntp32SetValue (ntpClamp32 delay maxDelay) }
  return blk

def generateReceptionBlock (addrIndex streamIndex : Nat) : Except Fault (ReceptionReportBlock × Reporter π) := do
  s.requireState .generating
  let (ssrc, stream) ← s.recvStreamAt P addrIndex streamIndex "SR/RR reception block"
  let report ← s.localReport stream
  let (fractLoss, loss) := stream.localRecvLoss.update report.packetCount report.cumLoss
  let blk ← s.receptionBlock ssrc stream report fractLoss
  return (blk, s.modifyStream ssrc fun stream => { stream with localRecvLoss := loss })

def generateXr : Except Fault XrPacket := do
  s.requireState .generating
  if !s.isSending P && !s.isReceiving P then
    throw (.panic "rtcp reporter: XR can be generated only by sender or receiver")
  return { XrPacket.reset with ssrc := s.localSourceId }

def generateDlrrSubblock (addrIndex streamIndex : Nat) : Except Fault XrDlrrSubblock := do
  s.requireState .generating
  if !s.isSending P then throw (.panic "rtcp reporter: DLRR can be generated only by sender")
  let (ssrc, stream) ← s.streamAt (← s.addressAt addrIndex).sendStreamIndex streamIndex
  if stream.lastRemoteRr > 0 ∧ stream.lastRemoteRr ≤ s.reportTime then
    let delay ← Packet.nanoseconds2Ntp (s.reportTime - stream.lastRemoteRr)
    return ⟨ssrc, ntp32SetValue stream.lastRemoteRrNtp, ntp32SetValue (ntpClamp32 delay maxDelay)⟩
  return ⟨ssrc, 0, 0⟩

def generateRrtrBlock : Except Fault XrRrtrBlock := do
  s.requireState .generating
  if !s.isReceiving P then throw (.panic "rtcp reporter: RRTR can be generated only by receiver")
  return { XrRrtrBlock.reset with ntpTimestamp := ← Packet.unix2Ntp s.reportTime }

def generateMeasurementInfoBlock (addrIndex streamIndex : Nat) : Except Fault XrMeasurementInfoBlock := do
  let (ssrc, stream) ← s.recvStreamAt P addrIndex streamIndex "Measurement Info"
  let report ← s.localReport stream
  return { XrMeasurementInfoBlock.reset with
    ssrc := ssrc
    firstSeq := report.extFirstSeqnum.toUInt16
    intervalFirstSeq := report.extLastSeqnum
    intervalLastSeq := report.extLastSeqnum }

/-- `set_metric_flag(MetricFlag_SampledValue)`. -/
def sampledValue (h : XrBlockHeader) : XrBlockHeader :=
  { h with typeSpecific := setBitField h.typeSpecific 0x1 6 0x03 }

def generateDelayMetricsBlock (addrIndex streamIndex : Nat) : Except Fault XrDelayMetricsBlock := do
  let (ssrc, stream) ← s.recvStreamAt P addrIndex streamIndex "Delay Metrics"
  let mut blk := { XrDelayMetricsBlock.reset with
    header := sampledValue XrDelayMetricsBlock.reset.header, ssrc }
  if stream.remoteSendRtt.hasMetrics then
    let rtt ← Packet.nanoseconds2Ntp stream.remoteSendRtt.metrics.rtt
    let value := ntp32SetValue (ntpClamp32 rtt (metricUnavail32 - 1))
    blk := { blk with meanRtt := value, minRtt := value, maxRtt := value }
  let report ← s.localReport stream
  if report.e2eLatency > 0 then
    let latency ← Packet.nanoseconds2Ntp report.e2eLatency
    blk := { blk with e2eLatency := ntpClamp64 latency (metricUnavail64 - 1) }
  return blk

def generateQueueMetricsBlock (addrIndex streamIndex : Nat) : Except Fault XrQueueMetricsBlock := do
  let (ssrc, stream) ← s.recvStreamAt P addrIndex streamIndex "Queue Metrics"
  let report ← s.localReport stream
  let blk := { XrQueueMetricsBlock.reset with
    header := sampledValue XrQueueMetricsBlock.reset.header, ssrc }
  if report.niqLatency > 0 then
    let latency ← Packet.nanoseconds2Ntp report.niqLatency
    let stalling ← Packet.nanoseconds2Ntp report.niqStalling
    return { blk with niqLatency := ntp32SetValue (ntpClamp32 latency (metricUnavail32 - 1))
                      niqStalling := ntp32SetValue (ntpClamp32 stalling (metricUnavail32 - 1)) }
  return blk

def generateGoodbye : Except Fault (UInt32 × Reporter π) := do
  s.requireState .generating
  return (s.localSourceId, if s.collisionDetected then { s with collisionReported := true } else s)

/-- One round of the loop of `resolve_collision_`: take another SSRC and see if it is free. -/
def pickSourceId : Loop.Round (Reporter π) :=
  let participant := P.changeSourceId s.participant
  let s := { s with participant := participant
                    localSourceId := (P.participantInfo participant).sourceId }
  if (s.findStream s.localSourceId .noAutoCreate).1.isSome then .again s else .leave s

def missedGoodbye : Fault := .panic "rtcp reporter: need_goodbye() returned true, but generate_goodbye() was not called"

/-- `resolve_collision_`. -/
def resolveCollision : Except Fault (Reporter π) := do
  if !s.collisionDetected then return s
  if !s.collisionReported then throw missedGoodbye
  let s ← Loop.repeatUntil (fun s => .ok (s.pickSourceId P)) .outOfFuel (s.streams.lru.length + 1) s
  let streams := s.streams.mapValues fun stream =>
    if stream.hasRemoteRecvReport then
      { stream with remoteRecvReport := { stream.remoteRecvReport with
        senderSourceId := s.localSourceId } }
    else stream
  return { s with streams, collisionDetected := false, collisionReported := false }

def endGeneration : Except Fault (StatusCode × Reporter π) := do
  s.requireState .generating
  let s ← resolveCollision P { s with reportState := .idle }
  let s ← s.detectTimeouts P
  return (s.reportError, s)

end

end Reporter

end Roc.Rtcp
