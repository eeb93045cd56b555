import RocToolkit.Lib.Loop
import RocToolkit.Packet.Parsers
import Mathlib.Algebra.BigOperators.Group.List.Basic
import Mathlib.Data.List.Basic

/-!
# RocToolkit.Pipeline.Endpoint

`pipeline::StateTracker`, and the inbound side of `ReceiverEndpoint` and `SenderEndpoint`. The network
thread writes packets to the queue of an endpoint, the pipeline pulls them out, parses them and gives
them to the sessions. The tracker, which all endpoints share, counts the packets that are on their way.

An endpoint remembers how much it added to that counter (`contributed`), which the source does not.
-/

namespace Roc.Pipeline

open List

/-! ## State tracker -/

inductive DeviceState where
  | active | idle
deriving DecidableEq, Repr

structure StateTracker where
  activeSessions : Int := 0
  pendingPackets : Int := 0
deriving DecidableEq, Repr

namespace StateTracker

def getState (tracker : StateTracker) : DeviceState :=
  if tracker.activeSessions ≠ 0 then .active
  else if tracker.pendingPackets ≠ 0 then .active
  else .idle

def addActiveSessions (tracker : StateTracker) (increment : Int) : Except Fault StateTracker :=
  if tracker.activeSessions + increment < 0 then .error (.panic "result < 0")
  else .ok { tracker with activeSessions := tracker.activeSessions + increment }

def addPendingPackets (tracker : StateTracker) (increment : Int) : Except Fault StateTracker :=
  if tracker.pendingPackets + increment < 0 then .error (.panic "result < 0")
  else .ok { tracker with pendingPackets := tracker.pendingPackets + increment }

variable {tracker tracker' : StateTracker} {increment : Int}

theorem addPendingPackets_ok (h : tracker.addPendingPackets increment = .ok tracker') :
    tracker' = { tracker with pendingPackets := tracker.pendingPackets + increment } := by
  unfold addPendingPackets at h
  split at h
  · cases h
  · cases h
    rfl

theorem addActiveSessions_ok (h : tracker.addActiveSessions increment = .ok tracker') :
    tracker' = { tracker with activeSessions := tracker.activeSessions + increment } := by
  unfold addActiveSessions at h
  split at h
  · cases h
  · cases h
    rfl

end StateTracker

/-! ## Endpoints -/

/-- The protocols of `address::Protocol` that an endpoint may have. -/
inductive Protocol where
  | rtp | rtpLdpcSource | rtpRs8mSource | ldpcRepair | rs8mRepair | rtcp
deriving DecidableEq, Repr

inductive Side where
  | receiver | sender
deriving DecidableEq, Repr

open Packet (Parser parseRtp parseFec parseRtcp ldpcSourcePayloadId ldpcRepairPayloadId rs8mPayloadId)

def Protocol.parser (isAudio : UInt8 → Bool) : Side → Protocol → Option Parser
  | .receiver, .rtp => some (parseRtp isAudio none)
  | .receiver, .rtpLdpcSource =>
    some (parseFec ldpcSourcePayloadId false .footer (some (parseRtp isAudio none)))
  | .receiver, .rtpRs8mSource =>
    some (parseFec rs8mPayloadId false .footer (some (parseRtp isAudio none)))
  | .receiver, .ldpcRepair => some (parseFec ldpcRepairPayloadId true .header none)
  | .receiver, .rs8mRepair => some (parseFec rs8mPayloadId true .header none)
  | _, .rtcp => some parseRtcp
  | .sender, _ => none

structure Endpoint where
  side : Side
  proto : Protocol
  inboundQueue : List Packet := []
  contributed : Int := 0
deriving DecidableEq, Repr

/-- What the packets are routed to: `ReceiverSessionGroup` or `SenderSession`. It counts sessions in the
tracker, but not packets. -/
structure Handler (γ : Type) where
  isAudio : UInt8 → Bool
  routePacket : StateTracker → γ → Packet → (currentTime : Int) → Except Fault (StatusCode × StateTracker × γ)
  keepsPending : ∀ {tracker sessions packet currentTime code tracker' sessions'},
    routePacket tracker sessions packet currentTime = .ok (code, tracker', sessions') →
      tracker'.pendingPackets = tracker.pendingPackets

structure Inbound (γ : Type) where
  endpoint : Endpoint
  tracker : StateTracker
  sessions : γ

namespace Inbound

variable {γ : Type}

/-- `state_tracker_.add_pending_packets` by this endpoint. -/
def addPendingPackets (s : Inbound γ) (increment : Int) : Except Fault (Inbound γ) := do
  return { s with
    tracker := ← s.tracker.addPendingPackets increment
    endpoint := { s.endpoint with contributed := s.endpoint.contributed + increment } }

/-- `inbound_writer().write`. -/
def write (H : Handler γ) (s : Inbound γ) (packet : Packet) : Except Fault (Inbound γ) := do
  if (s.endpoint.proto.parser H.isAudio s.endpoint.side).isNone then throw (.panic "!parser_")
  let s ← s.addPendingPackets 1
  return { s with
    endpoint := { s.endpoint with inboundQueue := s.endpoint.inboundQueue ++ [packet] } }

/-- The loop of `pull_packets`. The queue gives out at most `visible` packets: the others are being
added. -/
def pullLoop (H : Handler γ) (parse : Parser) (currentTime : Int) :
    (visible : Nat) → Inbound γ → Except Fault (StatusCode × Inbound γ)
  | 0, s => .ok (.ok, s)
  | visible + 1, s =>
    match s.endpoint.inboundQueue with
    | [] => .ok (.ok, s)
    | packet :: queue => do
      let s := { s with endpoint := { s.endpoint with inboundQueue := queue } }
      match parse packet packet.buffer with
      | none => pullLoop H parse currentTime visible s
      | some packet =>
        let (code, tracker, sessions) ← H.routePacket s.tracker s.sessions packet currentTime
        let s ← { s with tracker, sessions }.addPendingPackets (-1)
        if code ≠ .ok then return (code, s)
        pullLoop H parse currentTime visible s

def pullPackets (H : Handler γ) (s : Inbound γ) (currentTime : Int) (visible : Nat) :
    Except Fault (StatusCode × Inbound γ) :=
  match s.endpoint.proto.parser H.isAudio s.endpoint.side, s.endpoint.side with
  | none, .receiver => .error (.panic "!parser_")
  | none, .sender => .ok (.ok, s)
  | some parse, _ => pullLoop H parse currentTime visible s

/-! ### What a call adds to the counter -/

def Counted (s s' : Inbound γ) : Prop :=
  s'.tracker.pendingPackets - s.tracker.pendingPackets = s'.endpoint.contributed - s.endpoint.contributed

def Accepts (H : Handler γ) (endpoint : Endpoint) (visible : Nat) : Prop :=
  ∀ parse, endpoint.proto.parser H.isAudio endpoint.side = some parse →
    ∀ packet ∈ endpoint.inboundQueue.take visible, (parse packet packet.buffer).isSome

def Exact (endpoint : Endpoint) : Prop :=
  endpoint.contributed = endpoint.inboundQueue.length

variable {H : Handler γ} {s s' s'' : Inbound γ} {packet : Packet} {code : StatusCode}

theorem Counted.trans (h : Counted s s') (h' : Counted s' s'') : Counted s s'' := by
  unfold Counted at *
  omega

theorem addPendingPackets_spec {increment : Int} (h : s.addPendingPackets increment = .ok s') :
    Counted s s' ∧ s'.endpoint = { s.endpoint with contributed := s.endpoint.contributed + increment } := by
  obtain ⟨tracker, ht, h⟩ := bind_eq_ok.mp h
  cases h
  obtain rfl := StateTracker.addPendingPackets_ok ht
  refine ⟨?_, rfl⟩
  show s.tracker.pendingPackets + increment - _ = s.endpoint.contributed + increment - _
  omega

theorem write_spec (h : write H s packet = .ok s') : Counted s s' ∧ (Exact s.endpoint → Exact s'.endpoint) := by
  unfold write at h
  split at h
  · cases h
  · obtain ⟨s1, h1, h⟩ := bind_eq_ok.mp h
    cases h
    obtain ⟨hcounted, he⟩ := addPendingPackets_spec h1
    refine ⟨hcounted, fun hx => ?_⟩
    show s1.endpoint.contributed = ((s1.endpoint.inboundQueue ++ [packet]).length : Int)
    rw [he, length_append, hx]
    rfl

variable {currentTime : Int}

theorem pullLoop_spec {parse : Parser} :
    ∀ {visible : Nat} {s : Inbound γ}, pullLoop H parse currentTime visible s = .ok (code, s') →
      Counted s s' ∧ ((∀ packet ∈ s.endpoint.inboundQueue.take visible, (parse packet packet.buffer).isSome) →
        Exact s.endpoint → Exact s'.endpoint) := by
  intro visible
  induction visible with
  | zero =>
    intro s h
    cases h
    exact ⟨by unfold Counted; omega, fun _ hx => hx⟩
  | succ visible ih =>
    intro s h
    unfold pullLoop at h
    split at h
    · cases h
      exact ⟨by unfold Counted; omega, fun _ hx => hx⟩
    next packet queue hq =>
    simp only at h
    split at h
    · next hrej =>
      -- the packet is gone, but still counted
      obtain ⟨hcounted, -⟩ := ih h
      refine ⟨hcounted, fun hacc => ?_⟩
      rw [hq, take_succ_cons] at hacc
      have := hacc packet mem_cons_self
      rw [hrej] at this
      cases this
    next packet' hacc' =>
    obtain ⟨⟨code', tracker, sessions⟩, hr, h⟩ := bind_eq_ok.mp h
    obtain ⟨s1, h1, h⟩ := bind_eq_ok.mp h
    obtain ⟨hcounted1, he1⟩ := addPendingPackets_spec h1
    have hpend := H.keepsPending hr
    have hcounted : Counted s s1 := by
      unfold Counted at hcounted1 ⊢
      simp only at hpend hcounted1
      omega
    have hexact (hx : Exact s.endpoint) : Exact s1.endpoint := by
      unfold Exact at hx ⊢
      rw [hq, length_cons] at hx
      rw [he1]
      simp only
      omega
    split at h
    · cases h
      exact ⟨hcounted, fun _ => hexact⟩
    · obtain ⟨hcounted', hexact'⟩ := ih h
      refine ⟨hcounted.trans hcounted', fun hacc hx => hexact' ?_ (hexact hx)⟩
      intro p hp
      refine hacc p ?_
      rw [hq, take_succ_cons]
      rw [he1] at hp
      exact mem_cons_of_mem _ hp

theorem pullPackets_spec {visible : Nat} (h : pullPackets H s currentTime visible = .ok (code, s')) :
    Counted s s' ∧ (Accepts H s.endpoint visible → Exact s.endpoint → Exact s'.endpoint) := by
  unfold pullPackets at h
  split at h
  · cases h
  · cases h
    exact ⟨by unfold Counted; omega, fun _ hx => hx⟩
  · next _ parse hparse =>
    obtain ⟨hcounted, hexact⟩ := pullLoop_spec h
    exact ⟨hcounted, fun hacc => hexact (hacc parse hparse)⟩

end Inbound

/-! ## Runs -/

structure Endpoints (γ : Type) where
  endpoints : List Endpoint
  tracker : StateTracker := {}
  sessions : γ

namespace Endpoints

open Inbound (Accepts Exact Counted write_spec pullPackets_spec)

variable {γ : Type}

def inbound (s : Endpoints γ) (endpoint : Endpoint) : Inbound γ := ⟨endpoint, s.tracker, s.sessions⟩

def after (s : Endpoints γ) (i : Nat) (r : Inbound γ) : Endpoints γ :=
  ⟨s.endpoints.set i r.endpoint, r.tracker, r.sessions⟩

inductive Call where
  | write (i : Nat) (packet : Packet)
  | pullPackets (i : Nat) (currentTime : Int) (visible : Nat)
  /-- the sessions do something else -/
  | sessions

/-- A call that returns, whatever its status. -/
inductive CallStep (H : Handler γ) : Endpoints γ → Call → Endpoints γ → Prop where
  | write {s : Endpoints γ} {i : Nat} {endpoint : Endpoint} {packet : Packet} {r : Inbound γ}
      (hi : s.endpoints[i]? = some endpoint) (h : (s.inbound endpoint).write H packet = .ok r) :
      CallStep H s (.write i packet) (s.after i r)
  | pullPackets {s : Endpoints γ} {i visible : Nat} {endpoint : Endpoint} {currentTime : Int}
      {code : StatusCode} {r : Inbound γ} (hi : s.endpoints[i]? = some endpoint)
      (h : (s.inbound endpoint).pullPackets H currentTime visible = .ok (code, r)) :
      CallStep H s (.pullPackets i currentTime visible) (s.after i r)
  | sessions {s : Endpoints γ} (activeSessions : Int) (sessions : γ) : CallStep H s .sessions
        { s with tracker := { s.tracker with activeSessions }, sessions }

def ParsesAll (H : Handler γ) (s : Endpoints γ) : Call → Prop
  | .pullPackets i _ visible => ∀ endpoint, s.endpoints[i]? = some endpoint → Accepts H endpoint visible
  | _ => True

def Start (s : Endpoints γ) : Prop :=
  s.tracker.pendingPackets = 0 ∧ ∀ endpoint ∈ s.endpoints, endpoint.inboundQueue = [] ∧ endpoint.contributed = 0

structure Balanced (s : Endpoints γ) : Prop where
  exact : ∀ endpoint ∈ s.endpoints, Exact endpoint
  sum : s.tracker.pendingPackets = (s.endpoints.map Endpoint.contributed).sum

variable {H : Handler γ} {s s' : Endpoints γ}

theorem Balanced.start (h : s.Start) : s.Balanced := by
  refine ⟨fun endpoint he => ?_, ?_⟩
  · obtain ⟨hq, hc⟩ := h.2 endpoint he
    rw [Exact, hq, hc]
    rfl
  · rw [h.1, sum_eq_zero]
    intro x hx
    obtain ⟨endpoint, he, rfl⟩ := mem_map.mp hx
    exact (h.2 endpoint he).2

theorem Balanced.after (h : s.Balanced) {i : Nat} {endpoint : Endpoint} {r : Inbound γ}
    (hi : s.endpoints[i]? = some endpoint) (hcounted : Counted (s.inbound endpoint) r)
    (hexact : Exact endpoint → Exact r.endpoint) : (s.after i r).Balanced := by
  obtain ⟨hlt, rfl⟩ := List.getElem?_eq_some_iff.mp hi
  refine ⟨fun e he => ?_, ?_⟩
  · rcases mem_or_eq_of_mem_set he with he | rfl
    · exact h.exact e he
    · exact hexact (h.exact _ (getElem_mem hlt))
  · have hsum := h.sum
    unfold Counted inbound at hcounted
    unfold Endpoints.after
    simp only at hcounted ⊢
    rw [map_set, sum_set', dif_pos (by simpa using hlt), getElem_map]
    omega

theorem Balanced.step (h : s.Balanced) {c : Call} (hc : ParsesAll H s c) (hstep : CallStep H s c s') : s'.Balanced := by
  cases hstep with
  | write hi hw =>
    obtain ⟨hcounted, hexact⟩ := write_spec hw
    exact h.after hi hcounted hexact
  | pullPackets hi hp =>
    obtain ⟨hcounted, hexact⟩ := pullPackets_spec hp
    exact h.after hi hcounted (hexact (hc _ hi))
  | sessions => exact ⟨h.exact, h.sum⟩

/-- In every run in which no parser rejects a packet, each endpoint has added what is in its queue, and
the device is idle when there is nothing to do. -/
theorem exact_of_reaches (h : Reaches Start (CallStep H) (ParsesAll H) s) :
    (∀ endpoint ∈ s.endpoints, endpoint.contributed = endpoint.inboundQueue.length) ∧
      ((∀ endpoint ∈ s.endpoints, endpoint.inboundQueue = []) → s.tracker.activeSessions = 0 →
        s.tracker.getState = .idle) := by
  have hinv : s.Balanced := h.invariant (fun s => .start) fun s c s' h hc hstep => h.step hc hstep
  refine ⟨hinv.exact, fun hempty hactive => ?_⟩
  have hpending : s.tracker.pendingPackets = 0 := by
    rw [hinv.sum, List.sum_eq_zero]
    intro x hx
    obtain ⟨endpoint, he, rfl⟩ := List.mem_map.mp hx
    rw [hinv.exact endpoint he, hempty endpoint he]
    rfl
  rw [StateTracker.getState, if_neg (not_not.mpr hactive), if_neg (not_not.mpr hpending)]

def noSessions : Handler Unit where
  isAudio _ := false
  routePacket tracker sessions _ _ := .ok (.ok, tracker, sessions)
  keepsPending h := by
    cases h
    rfl

/-- Three bytes are no RTP packet. The packet is dropped, and the device stays active for ever. -/
theorem shortPacket_leaks : ∃ s : Endpoints Unit,
    Reaches Start (CallStep noSessions) (fun _ _ => True) s ∧
      (∀ endpoint ∈ s.endpoints, endpoint.inboundQueue = [] ∧ endpoint.contributed = 1) ∧
      s.tracker.activeSessions = 0 ∧ s.tracker.getState = .active := by
  let s : Endpoints Unit := { endpoints := [{ side := .receiver, proto := .rtp }], sessions := () }
  have hstart : s.Start := by
    refine ⟨rfl, fun endpoint he => ?_⟩
    obtain rfl := List.mem_singleton.mp he
    exact ⟨rfl, rfl⟩
  refine ⟨_, .step (a := .pullPackets 0 0 1) (.step (a := .write 0 { buffer := [1, 2, 3] }) (.start hstart)
    trivial (.write rfl rfl)) trivial (.pullPackets rfl rfl), ?_, rfl, rfl⟩
  intro endpoint he
  obtain rfl := List.mem_singleton.mp he
  exact ⟨rfl, rfl⟩

end Endpoints
end Roc.Pipeline
