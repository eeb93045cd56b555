import RocToolkit.Pipeline.Endpoint
import RocToolkit.Pipeline.RouteInvariant

/-!
# RocToolkit.Pipeline.SessionGroup

`pipeline::ReceiverSessionGroup`: it creates a session for the first packet of a stream, finds the
session of each further packet with the router, and removes sessions that have ended or that no route
leads to any more. A session is known by a number; what it does with packets is given by `SessionClass`.

RTCP packets reach the group through the communicator, which calls `notify_recv_stream` and
`halt_recv_stream`.
-/

namespace Roc.Pipeline

open Rtcp (Cname CString SendReport)

variable {ψ : Type}

/-- `ReceiverSession`. A method that fails or ends the session says so in its result. -/
structure SessionClass (ψ : Type) where
  create : Packet → Option ψ
  routePacket : ψ → Packet → StatusCode × ψ
  refresh : ψ → (currentTime : Int) → Bool × Int × ψ
  reclock : ψ → (playbackTime : Int) → Bool × ψ
  processReport : ψ → SendReport → ψ

structure GroupConfig where
  enableRouting : Bool := true
  payloadType : UInt8 := 0

structure SessionGroup (ψ : Type) where
  objects : Dict Nat ψ := ∅
  nextSession : Nat := 0
  sessions : List Nat := []
  -- the inputs of the mixer that this group added
  mixerInputs : List Nat := []
  router : SessionRouter Nat := {}
  tracker : StateTracker := {}

namespace SessionGroup

variable (C : SessionClass ψ) (config : GroupConfig)

def object (g : SessionGroup ψ) (sess : Nat) : Except Fault ψ :=
  match g.objects.get sess with
  | none => .error .dangling
  | some object => .ok object

def setObject (g : SessionGroup ψ) (sess : Nat) (object : ψ) : SessionGroup ψ :=
  { g with objects := g.objects.insert sess object }

/-- `List::remove`. -/
def removeMember (l : List Nat) (sess : Nat) : Except Fault (List Nat) :=
  if sess ∈ l then .ok (l.erase sess) else .error (.panic "list: element is member of wrong list")

/-- `remove_session_`. -/
def removeSession (g : SessionGroup ψ) (sess : Nat) : Except Fault (SessionGroup ψ) := do
  let mixerInputs ← removeMember g.mixerInputs sess
  let sessions ← removeMember g.sessions sess
  let router ← g.router.removeSession sess
  let tracker ← g.tracker.addActiveSessions (-1)
  return { g with mixerInputs, sessions, router, tracker }

def removeOrphan (g : SessionGroup ψ) (oldSess : Option Nat) : Except Fault (SessionGroup ψ) :=
  match oldSess with
  | none => .ok g
  | some sess => if g.router.hasSession sess then .ok g else g.removeSession sess

/-! ## Packets -/

def findSession (g : SessionGroup ψ) (packet : Packet) : Except Fault (Option Nat) :=
  if config.enableRouting then do
    let sess ← match packet.sourceId with
      | none => .ok none
      | some sourceId => g.router.findBySource sourceId
    match sess, packet.udp with
    | none, some udp => g.router.findByAddress udp.srcAddr
    | sess, _ => return sess
  else if 1 < g.sessions.length then
    .error (.panic "!(sessions_.size() == 0 || sessions_.size() == 1)")
  else .ok g.sessions.head?

/-- `can_create_session_`. -/
def canCreateSession (packet : Packet) : Bool := !packet.repair && !(config.payloadType ≠ 0 &&
    packet.rtp.any fun rtp => rtp.payloadType ≠ config.payloadType)

/-- The end of `create_session_`, for a session that took its first packet. -/
def addSession (g : SessionGroup ψ) (sourceId : UInt32) (srcAddr : SocketAddr) : Except Fault (SessionGroup ψ) := do
  let sess := g.nextSession
  let g := { g with nextSession := sess + 1 }
  let (code, router) ← g.router.addSession sess sourceId srcAddr
  let g := { g with router }
  if code ≠ .ok then return g
  let tracker ← g.tracker.addActiveSessions 1
  return { g with
    mixerInputs := g.mixerInputs ++ [sess], sessions := g.sessions ++ [sess], tracker }

/-- `create_session_`. -/
def createSession (g : SessionGroup ψ) (packet : Packet) : Except Fault (StatusCode × SessionGroup ψ) :=
  match packet.rtp, packet.udp, C.create packet with
  | some rtp, some udp, some object =>
    match C.routePacket object packet with
    | (.ok, object) => do
      let g ← (g.setObject g.nextSession object).addSession rtp.sourceId udp.srcAddr
      return (.ok, g)
    | _ => .ok (.ok, g)
  | _, _, _ => .ok (.ok, g)

/-- `route_transport_packet_`. -/
def routeTransportPacket (g : SessionGroup ψ) (packet : Packet) : Except Fault (StatusCode × SessionGroup ψ) := do
  match ← g.findSession config packet with
  | some sess =>
    let (code, object) := C.routePacket (← g.object sess) packet
    return (code, g.setObject sess object)
  | none =>
    if canCreateSession config packet then g.createSession C packet else return (.ok, g)

section
variable {C config} {g g' : SessionGroup ψ} {packet : Packet} {code : StatusCode}

theorem addSession_pending {sourceId : UInt32} {srcAddr : SocketAddr} (h : g.addSession sourceId srcAddr = .ok g') :
    g'.tracker.pendingPackets = g.tracker.pendingPackets := by
  obtain ⟨⟨code, router⟩, -, h⟩ := bind_eq_ok.mp h
  dsimp only at h
  split at h
  · cases h
    rfl
  · obtain ⟨tracker, ht, h⟩ := bind_eq_ok.mp h
    cases h
    rw [StateTracker.addActiveSessions_ok ht]

theorem createSession_pending (h : g.createSession C packet = .ok (code, g')) :
    g'.tracker.pendingPackets = g.tracker.pendingPackets := by
  unfold createSession at h
  split at h
  · split at h
    · obtain ⟨g1, hg1, h⟩ := bind_eq_ok.mp h
      cases h
      have hkeep := addSession_pending hg1
      exact hkeep
    · cases h
      rfl
  · cases h
    rfl

theorem routeTransportPacket_pending (h : g.routeTransportPacket C config packet = .ok (code, g')) :
    g'.tracker.pendingPackets = g.tracker.pendingPackets := by
  obtain ⟨sess, -, h⟩ := bind_eq_ok.mp h
  cases sess with
  | none =>
    dsimp only at h
    split at h
    · exact createSession_pending h
    · cases h
      rfl
  | some sess =>
    obtain ⟨object, -, h⟩ := bind_eq_ok.mp h
    cases h
    rfl

end

/-- The group as the handler of an endpoint for RTP; they share the tracker. -/
def transportHandler (isAudio : UInt8 → Bool) : Handler (SessionGroup ψ) where
  isAudio
  routePacket tracker g packet _ := do
    let (code, g) ← routeTransportPacket C config { g with tracker } packet
    return (code, g.tracker, g)
  keepsPending h := by
    obtain ⟨⟨code, g'⟩, hg, h⟩ := bind_eq_ok.mp h
    cases h
    exact routeTransportPacket_pending hg

def plainSessions : SessionClass Unit where
  create _ := some ()
  routePacket _ _ := (.ok, ())
  refresh _ _ := (true, 0, ())
  reclock _ _ := (true, ())
  processReport _ _ := ()

def audioHandler : Handler (SessionGroup Unit) := transportHandler plainSessions {} (· == 10)

/-- An RTP packet with sequence number 1, from the SSRC 7. -/
def firstPacket : Packet :=
  { udp := some ⟨.ipv4 1 1, .ipv4 0 1⟩, buffer := [0x80, 10, 0, 1, 0, 0, 0, 0, 0, 0, 0, 7, 1, 2] }

def rtpEndpoint : Endpoint := { side := .receiver, proto := .rtp }

open Endpoints Inbound in
/-- The packet is written, parsed and given to the group, which makes a session for it. -/
theorem exact_of_reaches_rtp : ∃ s : Endpoints (SessionGroup Unit), s.sessions.sessions = [0] ∧
    s.tracker.activeSessions = 1 ∧ ∀ endpoint ∈ s.endpoints, endpoint.contributed = endpoint.inboundQueue.length := by
  let s : Endpoints (SessionGroup Unit) := { endpoints := [rtpEndpoint], sessions := {} }
  have hstart : Reaches Start (CallStep audioHandler) (ParsesAll audioHandler) s := by
    refine .start ⟨rfl, fun endpoint he => ?_⟩
    obtain rfl := List.mem_singleton.mp he
    exact ⟨rfl, rfl⟩
  have hwritten := hstart.step (a := Endpoints.Call.write 0 firstPacket) trivial (.write rfl rfl)
  have hpull : ((pullPackets audioHandler ⟨{ rtpEndpoint with inboundQueue := [firstPacket], contributed := 1 },
      { pendingPackets := 1 }, {}⟩ 0 1).toOption.any fun r =>
        r.2.sessions.sessions = [0] ∧ r.2.tracker.activeSessions = 1) = true := by
    decide +kernel
  obtain ⟨⟨code, r⟩, hr, hsessions⟩ := (Option.any_eq_true _ _).mp hpull
  obtain ⟨hlist, hactive⟩ := of_decide_eq_true hsessions
  have hparses : (Packet.parseRtp (· == 10) none firstPacket firstPacket.buffer).isSome = true := by decide +kernel
  have hpulled := hwritten.step (a := Endpoints.Call.pullPackets 0 0 1) (by
    rintro endpoint ⟨⟩ parse ⟨⟩ packet hmem
    obtain rfl := List.mem_singleton.mp hmem
    exact hparses) (.pullPackets rfl (toOption_eq_some hr))
  exact ⟨_, hlist, hactive, (exact_of_reaches hpulled).1⟩

/-! ## Control -/

def processReport (g : SessionGroup ψ) (sourceId : UInt32) (report : SendReport) : Except Fault (SessionGroup ψ) := do
  match ← g.router.findBySource sourceId with
  | none => return g
  | some sess => return g.setObject sess (C.processReport (← g.object sess) report)

def notifyRecvStream (g : SessionGroup ψ) (sendSourceId : UInt32) (report : SendReport) :
    Except Fault (StatusCode × SessionGroup ψ) := do
  let oldSess ← g.router.findBySource sendSourceId
  let (code, router) ← g.router.linkSource sendSourceId report.senderCname
  let g := { g with router }
  if code ≠ .ok then return (code, g)
  let g ← g.removeOrphan oldSess
  return (.ok, ← g.processReport C sendSourceId report)

def haltRecvStream (g : SessionGroup ψ) (sendSourceId : UInt32) : Except Fault (SessionGroup ψ) := do
  let oldSess ← g.router.findBySource sendSourceId
  let router ← g.router.unlinkSource sendSourceId
  { g with router }.removeOrphan oldSess

/-! ## Periodic calls -/

def minDeadline (nextDeadline sessDeadline : Int) : Int :=
  if sessDeadline = 0 then nextDeadline
  else if nextDeadline = 0 then sessDeadline
  else min nextDeadline sessDeadline

/-- The loop of `refresh_sessions` over the rest of the list. -/
def refreshLoop (currentTime : Int) : List Nat → Int → SessionGroup ψ → Except Fault (Int × SessionGroup ψ)
  | [], nextDeadline, g => .ok (nextDeadline, g)
  | sess :: rest, nextDeadline, g => do
    let (alive, sessDeadline, object) := C.refresh (← g.object sess) currentTime
    let g := g.setObject sess object
    if alive then refreshLoop currentTime rest (minDeadline nextDeadline sessDeadline) g
    else refreshLoop currentTime rest nextDeadline (← g.removeSession sess)

/-- `refresh_sessions` after the communicator made its reports. -/
def refreshSessions (g : SessionGroup ψ) (currentTime nextDeadline : Int) : Except Fault (Int × SessionGroup ψ) :=
  refreshLoop C currentTime g.sessions nextDeadline g

def reclockLoop (playbackTime : Int) : List Nat → SessionGroup ψ → Except Fault (SessionGroup ψ)
  | [], g => .ok g
  | sess :: rest, g => do
    let (alive, object) := C.reclock (← g.object sess) playbackTime
    let g := g.setObject sess object
    if alive then reclockLoop playbackTime rest g
    else reclockLoop playbackTime rest (← g.removeSession sess)

def reclockSessions (g : SessionGroup ψ) (playbackTime : Int) : Except Fault (SessionGroup ψ) :=
  reclockLoop C playbackTime g.sessions g

end SessionGroup
end Roc.Pipeline
