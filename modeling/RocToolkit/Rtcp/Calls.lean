import Mathlib.Data.List.Perm.Subperm
import RocToolkit.Rtcp.Reporter

/-!
# RocToolkit.Rtcp.Calls

The calls that a user of `rtcp::Reporter` can make, as one step function, and what a call that does
not refresh the index changes. The participant may change in any way between two calls.
-/

namespace Roc.Rtcp

/-- What a `process_*` method is given. -/
inductive Report where
  | cname (chunk : SdesChunk) (item : SdesItem)
  | sr (sr : SenderReportPacket)
  | receptionBlock (ssrc : UInt32) (blk : ReceptionReportBlock)
  | dlrrSubblock (xr : XrPacket) (blk : XrDlrrSubblock)
  | rrtr (xr : XrPacket) (blk : XrRrtrBlock)
  | measurementInfo (xr : XrPacket) (blk : XrMeasurementInfoBlock)
  | delayMetrics (xr : XrPacket) (blk : XrDelayMetricsBlock)
  | queueMetrics (xr : XrPacket) (blk : XrQueueMetricsBlock)
  | goodbye (ssrc : UInt32)
deriving DecidableEq, Repr

/-- What a `generate_*` method is asked for. -/
inductive Element where
  | destAddress (addrIndex : Nat)
  | cname
  | sr
  | rr
  | receptionBlock (addrIndex streamIndex : Nat)
  | xr
  | dlrrSubblock (addrIndex streamIndex : Nat)
  | rrtr
  | measurementInfo (addrIndex streamIndex : Nat)
  | delayMetrics (addrIndex streamIndex : Nat)
  | queueMetrics (addrIndex streamIndex : Nat)
  | goodbye
deriving DecidableEq, Repr

namespace Reporter

inductive Call (π : Type) where
  /-- not a call: the participant changes -/
  | environment (participant : π)
  | beginProcessing (reportAddr : SocketAddr) (reportTime : Int)
  | process (report : Report)
  | endProcessing
  | beginGeneration (reportTime : Int)
  | generate (element : Element)
  | endGeneration

def Call.isBegin {π : Type} : Call π → Bool
  | .beginProcessing .. | .beginGeneration _ => true
  | _ => false

variable {π : Type}

def process (P : Participant π) (s : Reporter π) : Report → Except Fault (Reporter π)
  | .cname chunk item => s.processCname P chunk item
  | .sr sr => s.processSr sr
  | .receptionBlock ssrc blk => s.processReceptionBlock ssrc blk
  | .dlrrSubblock xr blk => s.processDlrrSubblock xr blk
  | .rrtr xr blk => s.processRrtrBlock xr blk
  | .measurementInfo xr blk => s.processMeasurementInfoBlock xr blk
  | .delayMetrics xr blk => s.processDelayMetricsBlock xr blk
  | .queueMetrics xr blk => s.processQueueMetricsBlock xr blk
  | .goodbye ssrc => s.processGoodbye P ssrc

/-- A `generate_*` call, without what it returns. -/
def generate (P : Participant π) (s : Reporter π) : Element → Except Fault (Reporter π)
  | .destAddress i => do let _ ← s.generateDestAddress i; return s
  | .cname => do let _ ← s.generateCname; return s
  | .sr => do return (← s.generateSr P).2
  | .rr => do return (← s.generateRr).2
  | .receptionBlock i j => do return (← s.generateReceptionBlock P i j).2
  | .xr => do let _ ← s.generateXr P; return s
  | .dlrrSubblock i j => do let _ ← s.generateDlrrSubblock P i j; return s
  | .rrtr => do let _ ← s.generateRrtrBlock P; return s
  | .measurementInfo i j => do let _ ← s.generateMeasurementInfoBlock P i j; return s
  | .delayMetrics i j => do let _ ← s.generateDelayMetricsBlock P i j; return s
  | .queueMetrics i j => do let _ ← s.generateQueueMetricsBlock P i j; return s
  | .goodbye => do return (← s.generateGoodbye).2

def call (P : Participant π) (s : Reporter π) : Call π → Except Fault (StatusCode × Reporter π)
  | .environment participant => .ok (.ok, { s with participant })
  | .beginProcessing reportAddr reportTime => s.beginProcessing P reportAddr reportTime
  | .process report => do return (.ok, ← s.process P report)
  | .endProcessing => s.endProcessing P
  | .beginGeneration reportTime => s.beginGeneration P reportTime
  | .generate element => do return (.ok, ← s.generate P element)
  | .endGeneration => s.endGeneration P

/-- A call returned and left the reporter in `s'`. -/
def CallStep (P : Participant π) (s : Reporter π) (c : Call π) (s' : Reporter π) : Prop :=
  ∃ code, s.call P c = .ok (code, s')

def Initial (P : Participant π) (s : Reporter π) : Prop :=
  ∃ config participant arena, Reporter.new P config participant arena = some s

def runCalls (P : Participant π) (config : Config) (participant : π) (calls : List (Call π)) : Option (Reporter π) :=
  calls.foldlM (fun s c => (s.call P c).toOption.map Prod.snd) =<< Reporter.new P config participant []

variable {calls : List (Call π)} {P : Participant π}

theorem reaches_foldlM : ∀ {s s' : Reporter π}, Reaches (Initial P) (CallStep P) (fun _ _ => True) s →
    calls.foldlM (fun s c => (s.call P c).toOption.map Prod.snd) s = some s' →
    Reaches (Initial P) (CallStep P) (fun _ _ => True) s' := by
  induction calls with
  | nil =>
    intro s s' h hr
    cases hr
    exact h
  | cons c calls ih =>
    intro s s' h hr
    obtain ⟨s1, hc, hr⟩ := Option.bind_eq_some_iff.mp hr
    obtain ⟨⟨code, s1⟩, hc', rfl⟩ := Option.map_eq_some_iff.mp hc
    have hstep : CallStep P s c s1 := ⟨code, toOption_eq_some hc'⟩
    exact ih (.step h trivial hstep) hr

theorem reaches_runCalls {config : Config} {participant : π} {s : Reporter π}
    (h : runCalls P config participant calls = some s) : Reaches (Initial P) (CallStep P) (fun _ _ => True) s := by
  obtain ⟨s0, hn, hr⟩ := Option.bind_eq_some_iff.mp h
  exact reaches_foldlM (.start ⟨config, participant, [], hn⟩) hr

/-! ## What the parts of a call do -/

section
variable {P : Participant π} {s s' : Reporter π} {ssrc : UInt32} {mode : CreateMode}

theorem requireState_ok {state : ReportState} (h : s.requireState state = .ok ()) : s.reportState = state := by
  unfold requireState at h
  by_cases hs : s.reportState = state
  · exact hs
  · rw [if_pos hs] at h
    cases h

theorem alloc_eq (s : Reporter π) : s.alloc = (s.arena.headD true, { s with arena := s.arena.tail }) := by
  unfold alloc
  cases s with | mk => rename_i arena _; cases arena <;> rfl

/-- The stream that `find_stream_` creates. -/
def freshStream (s : Reporter π) : Stream := { id := s.nextStream, lastUpdate := s.reportTime }

def createStream (s : Reporter π) (ssrc : UInt32) : Reporter π :=
  { s with arena := s.arena.tail
           streams := s.streams.insert ssrc s.freshStream
           nextStream := s.nextStream + 1
           needRebuildIndex := true }

theorem findStream_cases (s : Reporter π) (ssrc : UInt32) (mode : CreateMode) :
    (∃ stream, s.streams.find ssrc = some stream ∧ s.findStream ssrc mode = (some stream, s)) ∨
    (s.streams.find ssrc = none ∧ mode = .noAutoCreate ∧ s.findStream ssrc mode = (none, s)) ∨
    (s.streams.find ssrc = none ∧ mode = .autoCreate ∧ s.findStream ssrc mode =
      (none, { s with arena := s.arena.tail, reportError := .noMem })) ∨
    (s.streams.find ssrc = none ∧ mode = .autoCreate ∧ s.findStream ssrc mode =
      (some s.freshStream, s.createStream ssrc)) := by
  unfold findStream
  cases hf : s.streams.find ssrc with
  | some stream => exact .inl ⟨stream, rfl, rfl⟩
  | none =>
    cases mode with
    | noAutoCreate => exact .inr (.inl ⟨rfl, rfl, rfl⟩)
    | autoCreate =>
      rw [alloc_eq]
      cases s.arena.headD true with
      | false => exact .inr (.inr (.inl ⟨rfl, rfl, rfl⟩))
      | true => exact .inr (.inr (.inr ⟨rfl, rfl, rfl⟩))

theorem detectCollision_cases (s : Reporter π) (ssrc : UInt32) : s.detectCollision ssrc = s ∨
    (s.collisionDetected = false ∧ ssrc = s.localSourceId ∧
      s.detectCollision ssrc = { s with collisionDetected := true, collisionReported := false }) ∨
    (s.collisionDetected = false ∧ ssrc = s.localSourceId ∧
      ∃ stream, s.streams.find ssrc = some stream ∧ stream.isLooped = false ∧
        stream.cname = s.localCname ∧ s.detectCollision ssrc =
          s.modifyStream ssrc fun stream => { stream with isLooped := true }) := by
  unfold detectCollision
  cases hd : s.collisionDetected with
  | true => exact .inl rfl
  | false =>
    by_cases hl : ssrc = s.localSourceId
    · rw [if_neg (by simp), if_neg (not_not.mpr hl)]
      cases hf : s.streams.find ssrc with
      | none => exact .inr (.inl ⟨rfl, hl, rfl⟩)
      | some stream =>
        cases hloop : stream.isLooped with
        | true => exact .inl (by simp [hloop])
        | false =>
          by_cases hc : stream.cname = s.localCname
          · exact .inr (.inr ⟨rfl, hl, stream, rfl, hloop, hc, by simp [hloop, hc]⟩)
          · exact .inr (.inl ⟨rfl, hl, by simp [hloop, hc]⟩)
    · rw [if_neg (by simp), if_pos hl]
      exact .inl rfl

theorem processReport_cases {accepted : Bool} {ready : RemoteState → Bool}
    {f : RemoteState → Except Fault (RemoteState × Bool)} (h : s.processReport ssrc accepted mode ready f = .ok s') :
    s.reportState = .processing ∧
    ((accepted = false ∧ s' = s.detectCollision ssrc) ∨
     (accepted = true ∧ (s.detectCollision ssrc).findStream ssrc mode = (none, s')) ∨
     (accepted = true ∧ ∃ stream, (s.detectCollision ssrc).findStream ssrc mode = (some stream, s') ∧
        ready stream.toRemoteState = false) ∨
     (accepted = true ∧ ∃ stream s1 remote rebuild, (s.detectCollision ssrc).findStream ssrc mode = (some stream, s1) ∧
        ready stream.toRemoteState = true ∧ f stream.toRemoteState = .ok (remote, rebuild) ∧
        s' = (s1.setRemote ssrc remote rebuild).updateStream ssrc)) := by
  unfold processReport at h
  obtain ⟨_, hst, h⟩ := bind_eq_ok.mp h
  refine ⟨requireState_ok hst, ?_⟩
  cases accepted with
  | false => cases h; exact .inl ⟨rfl, rfl⟩
  | true =>
    simp only [Bool.not_true, Bool.false_eq_true, if_false] at h
    cases hf : (s.detectCollision ssrc).findStream ssrc mode with
    | mk found s1 =>
      rw [hf] at h
      cases found with
      | none => cases h; exact .inr (.inl ⟨rfl, rfl⟩)
      | some stream =>
        cases hr : ready stream.toRemoteState with
        | false =>
          simp only [hr, Bool.not_false, if_true] at h
          cases h
          exact .inr (.inr (.inl ⟨rfl, stream, rfl, hr⟩))
        | true =>
          simp only [hr, Bool.not_true, Bool.false_eq_true, if_false] at h
          obtain ⟨⟨remote, rebuild⟩, hf', h⟩ := bind_eq_ok.mp h
          cases h
          exact .inr (.inr (.inr ⟨rfl, stream, s1, remote, rebuild, rfl, hr, hf', rfl⟩))

end

/-! ## Reports as one family -/

end Reporter

namespace Report

def source : Report → UInt32
  | .cname chunk _ => chunk.ssrc
  | .sr packet => packet.ssrc
  | .receptionBlock ssrc _ => ssrc
  | .dlrrSubblock xr _ | .rrtr xr _ | .measurementInfo xr _ | .delayMetrics xr _
  | .queueMetrics xr _ => xr.ssrc
  | .goodbye ssrc => ssrc

def createMode : Report → CreateMode
  | .cname .. | .sr _ | .receptionBlock .. => .autoCreate
  | _ => .noAutoCreate

def ready : Report → RemoteState → Bool
  | .dlrrSubblock .. => (·.hasRemoteSendReport)
  | .rrtr .. | .measurementInfo .. | .delayMetrics .. | .queueMetrics .. => (·.hasRemoteRecvReport)
  | _ => fun _ => true

def carriesState : Report → Bool
  | .cname .. | .goodbye _ => false
  | _ => true

end Report

namespace Reporter

def accepts (s : Reporter π) : Report → Bool
  | .receptionBlock _ blk => s.hasLocalSendReport && blk.ssrc == s.localSourceId
  | .dlrrSubblock _ blk => blk.ssrc == s.localSourceId
  | .measurementInfo _ blk => blk.ssrc == s.localSourceId
  | .delayMetrics _ blk => blk.ssrc == s.localSourceId
  | .queueMetrics _ blk => blk.ssrc == s.localSourceId
  | _ => true

def applyReport (s : Reporter π) (report : Report) (r : RemoteState) : Except Fault (RemoteState × Bool) :=
  match report with
  | .sr sr => .ok (s.applySr sr r)
  | .receptionBlock ssrc blk => s.applyReceptionBlock ssrc blk r
  | .dlrrSubblock _ blk => s.applyDlrrSubblock blk r
  | .rrtr _ blk => .ok (s.applyRrtrBlock blk r, false)
  | .measurementInfo _ blk => .ok (applyMeasurementInfoBlock blk r, false)
  | .delayMetrics _ blk => .ok (applyDelayMetricsBlock blk r, false)
  | .queueMetrics _ blk => .ok (applyQueueMetricsBlock blk r, false)
  | .cname .. | .goodbye _ => .ok (r, false)

theorem process_eq (P : Participant π) (s : Reporter π) {report : Report} (h : report.carriesState = true) :
    s.process P report = s.processReport report.source (s.accepts report) report.createMode
      report.ready (s.applyReport report) := by
  cases report with
  | cname => cases h
  | goodbye => cases h
  | _ => rfl

/-! ## What calls other than `begin_*` change -/

end Reporter

structure IndexPart where
  addresses : LruTable SocketAddr Address
  addressIndex : List SocketAddr
  localRecvReports : ReportArray
  hasLocalSendReport : Bool
  reportMode : ReportMode
  reportAddr : SocketAddr

namespace Reporter

def indexPart (s : Reporter π) : IndexPart :=
  ⟨s.addresses, s.addressIndex, s.localRecvReports, s.hasLocalSendReport, s.participantReportMode,
    s.participantReportAddr⟩

/-- Only `begin_*` touches the index. The other calls ask for a new one, or they keep the streams and
their order as far as `v` shows. -/
structure Effect {V : Type} (v : IndexPart → Stream → V) (s s' : Reporter π) : Prop where
  frame : s'.indexPart = s.indexPart
  streams : s'.needRebuildIndex = true ∨ (s'.needRebuildIndex = s.needRebuildIndex ∧
    s.streams.Extends (fun a b => v s.indexPart b = v s.indexPart a) (fun _ => False) s'.streams)

structure Blind {V : Type} (v : IndexPart → Stream → V) : Prop where
  lastUpdate : ∀ p stream time, v p { stream with lastUpdate := time } = v p stream
  localRecvLoss : ∀ p stream loss, v p { stream with localRecvLoss := loss } = v p stream
  senderSourceId : ∀ p stream ssrc, v p { stream with remoteRecvReport :=
    { stream.remoteRecvReport with senderSourceId := ssrc } } = v p stream

section
variable {V : Type} {v : IndexPart → Stream → V} {P : Participant π} {s s' s'' : Reporter π}
  {ssrc : UInt32}

theorem Effect.of_streams (hp : s'.indexPart = s.indexPart) (hs : s'.streams = s.streams)
    (hn : s'.needRebuildIndex = s.needRebuildIndex) : Effect v s s' :=
  ⟨hp, .inr ⟨hn, by rw [hs]; exact .refl fun _ => rfl⟩⟩

theorem Effect.refl (s : Reporter π) : Effect v s s := .of_streams rfl rfl rfl

theorem Effect.of_rebuild (hp : s'.indexPart = s.indexPart) (hn : s'.needRebuildIndex = true) :
    Effect v s s' := ⟨hp, .inl hn⟩

theorem Effect.trans (h : Effect v s s') (h' : Effect v s' s'') : Effect v s s'' := by
  refine ⟨h'.frame.trans h.frame, ?_⟩
  rcases h'.streams with hn' | ⟨hn', he'⟩
  · exact .inl hn'
  · rcases h.streams with hn | ⟨hn, he⟩
    · exact .inl (hn'.trans hn)
    · rw [h.frame] at he'
      exact .inr ⟨hn'.trans hn, he.trans he' (fun _ _ _ hab hbc => hbc.trans hab) fun _ _ h => h.elim⟩

theorem Effect.modify {f : Stream → Stream}
    (hf : ∀ stream, s.streams.find ssrc = some stream → v s.indexPart (f stream) = v s.indexPart stream) :
    Effect v s (s.modifyStream ssrc f) :=
  ⟨rfl, .inr ⟨rfl, .modify (fun _ => rfl) hf⟩⟩

/-- An invariant of the index and the streams it was built from, as long as no new one is asked
for. -/
theorem Effect.keeps {R : IndexPart → LruTable UInt32 Stream → Prop}
    (hR : ∀ p t t', t.Extends (fun a b => v p b = v p a) (fun _ => False) t' → R p t → R p t')
    (h : Effect v s s') (hi : s.needRebuildIndex = false → R s.indexPart s.streams)
    (hn : s'.needRebuildIndex = false) : R s'.indexPart s'.streams := by
  rcases h.streams with hn' | ⟨hn', he⟩
  · rw [hn] at hn'
    cases hn'
  · rw [h.frame]
    exact hR _ _ _ he (hi (hn'.symm.trans hn))

theorem updateStream_cases (s : Reporter π) (ssrc : UInt32) : s.updateStream ssrc = s ∨ s.updateStream ssrc = { s with
      streams := (s.streams.modify ssrc fun stream => { stream with lastUpdate := s.reportTime }).touch ssrc } := by
  unfold updateStream
  split
  · exact .inl rfl
  · split
    · exact .inl rfl
    · exact .inr rfl

theorem effect_updateStream (hv : Blind v) : Effect v s (s.updateStream ssrc) := by
  rcases updateStream_cases s ssrc with h | h <;> rw [h]
  · exact .refl s
  · exact ⟨rfl, .inr ⟨rfl, .modify_touch (fun _ => rfl) fun _ _ => hv.lastUpdate _ _ _⟩⟩

theorem effect_findStream (ssrc : UInt32) (mode : CreateMode) : Effect v s (s.findStream ssrc mode).2 := by
  rcases findStream_cases s ssrc mode with ⟨_, _, h⟩ | ⟨_, _, h⟩ | ⟨_, _, h⟩ | ⟨_, _, h⟩ <;> rw [h]
  · exact .refl s
  · exact .refl s
  · exact .of_streams rfl rfl rfl
  · exact .of_rebuild rfl rfl

/-- The stream with our SSRC and CNAME is our own, and is marked so unless its SSRC counts as a
collision. -/
def LoopsMarked (s : Reporter π) : Prop :=
  ∀ stream, s.streams.find s.localSourceId = some stream → stream.cname = s.localCname →
    stream.isLooped = true ∨ s.collisionDetected = true

theorem effect_detectCollision (hloop : s.LoopsMarked ∨ ∀ p stream, v p { stream with isLooped := true } = v p stream) :
    Effect v s (s.detectCollision ssrc) := by
  rcases detectCollision_cases s ssrc with h | ⟨_, _, h⟩ | ⟨hd, hl, stream, hf, hnl, hc, h⟩ <;> rw [h]
  · exact .refl s
  · exact .of_streams rfl rfl rfl
  · rcases hloop with hm | hv
    · rw [hl] at hf
      rcases hm stream hf hc with hl' | hd'
      · rw [hnl] at hl'; cases hl'
      · rw [hd] at hd'; cases hd'
    · exact .modify fun stream _ => hv _ stream

theorem effect_setRemote {remote : RemoteState} {rebuild : Bool}
    (h : rebuild = true ∨ s.needRebuildIndex = true ∨ ∀ stream, s.streams.find ssrc = some stream →
      v s.indexPart { stream with toRemoteState := remote } = v s.indexPart stream) :
    Effect v s (s.setRemote ssrc remote rebuild) := by
  rcases h with h | h | h
  · exact .of_rebuild rfl (by simp [setRemote, h])
  · exact .of_rebuild rfl (by simp [setRemote, h])
  · cases rebuild with
    | true => exact .of_rebuild rfl (by simp [setRemote])
    | false => exact (Effect.modify h).trans (.of_streams rfl rfl (by simp [setRemote, modifyStream]))

variable {stream : Stream} {chunk : SdesChunk} {item : SdesItem} {I : Reporter π → Prop}
  {isSending : Bool} {code : StatusCode} {element : Element}

theorem find_detectCollision {k : UInt32} (h : (s.detectCollision ssrc).streams.find k = some stream) :
    ∃ before, s.streams.find k = some before ∧ stream.toRemoteState = before.toRemoteState := by
  rcases detectCollision_cases s ssrc with he | ⟨_, _, he⟩ | ⟨_, _, looped, hf, _, _, he⟩ <;> rw [he] at h
  · exact ⟨stream, h, rfl⟩
  · exact ⟨stream, h, rfl⟩
  · have h : (s.streams.modify ssrc _).find k = some stream := h
    rw [LruTable.find_modify] at h
    by_cases hk : k = ssrc
    · rw [if_pos hk, hf] at h
      cases h
      exact ⟨looped, hk ▸ hf, rfl⟩
    · rw [if_neg hk] at h
      exact ⟨stream, h, rfl⟩

/-- The handler of a report keeps what `v` shows if storing the new remote state does, or if it asks
for a new index. -/
theorem effect_processReport (hv : Blind v)
    (hloop : s.LoopsMarked ∨ ∀ p stream, v p { stream with isLooped := true } = v p stream)
    {accepted : Bool} {mode : CreateMode} {ready : RemoteState → Bool}
    {f : RemoteState → Except Fault (RemoteState × Bool)}
    (hf : ∀ stream remote rebuild, s.streams.find ssrc = some stream → f stream.toRemoteState = .ok (remote, rebuild) →
      rebuild = true ∨ s.needRebuildIndex = true ∨ ∀ x : Stream, x.toRemoteState = stream.toRemoteState →
        v s.indexPart { x with toRemoteState := remote } = v s.indexPart x)
    (h : s.processReport ssrc accepted mode ready f = .ok s') : Effect v s s' := by
  obtain ⟨_, h⟩ := processReport_cases h
  have h1 : Effect v s (s.detectCollision ssrc) := effect_detectCollision hloop
  have h2 := h1.trans (effect_findStream ssrc mode)
  rcases h with ⟨_, rfl⟩ | ⟨_, he⟩ | ⟨_, _, he, _⟩ | ⟨_, stream, s1, remote, rebuild, he, _, hfr, rfl⟩
  · exact h1
  · rw [he] at h2
    exact h2
  · rw [he] at h2
    exact h2
  · rw [he] at h2
    refine (h2.trans (effect_setRemote ?_)).trans (effect_updateStream hv)
    rcases findStream_cases (s.detectCollision ssrc) ssrc mode with
      ⟨st, hst, he'⟩ | ⟨_, _, he'⟩ | ⟨_, _, he'⟩ | ⟨_, _, he'⟩ <;> rw [he] at he' <;> cases he'
    · -- a known stream
      obtain ⟨before, hb, heq⟩ := find_detectCollision hst
      rw [heq] at hfr
      rcases hf before remote rebuild hb hfr with hr | hn | hx
      · exact .inl hr
      · refine .inr (.inl ?_)
        rcases h1.streams with hn' | ⟨hn', _⟩
        · exact hn'
        · exact hn'.trans hn
      · refine .inr (.inr fun x hxf => ?_)
        rw [hst] at hxf
        cases hxf
        rw [h1.frame]
        exact hx stream heq
    · exact .inr (.inl rfl)

variable {text : CString}

theorem storeCname_ok (h : s.storeCname ssrc text = .ok s') :
    ∃ cname : Cname, cname.text = text ∧ s' = ((({ s.modifyStream ssrc fun stream =>
      { stream with cname } with needRebuildIndex := true }).detectCollision ssrc).updateStream ssrc) := by
  unfold storeCname at h
  by_cases hfit : text.length ≤ maxTextLen
  · rw [dif_pos hfit] at h
    cases h
    exact ⟨⟨text, hfit⟩, rfl, rfl⟩
  · rw [dif_neg hfit] at h
    cases h

/-- `process_cname`, by where it leaves; `s₁` is the state in which the stream exists and has no
CNAME, or an outdated one that was given up. -/
theorem processCname_cases (h : s.processCname P chunk item = .ok s') : s.reportState = .processing ∧
    ((item.text.length = 0 ∧ s' = s) ∨
     (item.text.length ≠ 0 ∧ s.findStream chunk.ssrc .autoCreate = (none, s')) ∨
     (item.text.length ≠ 0 ∧ ∃ stream, s.findStream chunk.ssrc .autoCreate = (some stream, s') ∧
        stream.cname.text = item.text) ∨
     (item.text.length ≠ 0 ∧ ∃ stream s1, s.findStream chunk.ssrc .autoCreate = (some stream, s1) ∧
        stream.cname.text.length = 0 ∧ s1.storeCname chunk.ssrc item.text = .ok s') ∨
     (item.text.length ≠ 0 ∧ ∃ stream s1 found s2,
        s.findStream chunk.ssrc .autoCreate = (some stream, s1) ∧ stream.cname.text.length ≠ 0 ∧
        ((s1.haltRecvStream P chunk.ssrc).removeStream chunk.ssrc).findStream chunk.ssrc .autoCreate = (found, s2) ∧
        ((found = none ∧ s' = s2) ∨
          (found ≠ none ∧ s2.storeCname chunk.ssrc item.text = .ok s')))) := by
  unfold processCname at h
  obtain ⟨_, hst, h⟩ := bind_eq_ok.mp h
  refine ⟨requireState_ok hst, ?_⟩
  by_cases hempty : item.text.length = 0
  · rw [if_pos hempty] at h
    cases h
    exact .inl ⟨hempty, rfl⟩
  rw [if_neg hempty] at h
  cases hf : s.findStream chunk.ssrc .autoCreate with
  | mk found s1 =>
    rw [hf] at h
    cases found with
    | none => cases h; exact .inr (.inl ⟨hempty, rfl⟩)
    | some stream =>
      by_cases hsame : stream.cname.text = item.text
      · simp only [hsame, if_true] at h
        cases h
        exact .inr (.inr (.inl ⟨hempty, stream, rfl, hsame⟩))
      · simp only [hsame, if_false] at h
        by_cases hne : stream.cname.text.length = 0
        · simp only [hne, if_true] at h
          exact .inr (.inr (.inr (.inl ⟨hempty, stream, s1, rfl, hne, h⟩)))
        · simp only [hne, if_false] at h
          refine .inr (.inr (.inr (.inr ⟨hempty, stream, s1, ?_⟩)))
          cases hf' : ((s1.haltRecvStream P chunk.ssrc).removeStream chunk.ssrc).findStream chunk.ssrc .autoCreate with
          | mk found s2 =>
            rw [hf'] at h
            refine ⟨found, s2, rfl, hne, rfl, ?_⟩
            cases found with
            | none => cases h; exact .inl ⟨rfl, rfl⟩
            | some _ => exact .inr ⟨by simp, h⟩

theorem processGoodbye_cases (h : s.processGoodbye P ssrc = .ok s') :
    s.reportState = .processing ∧ (s' = s.haltRecvStream P ssrc ∨
      s' = (s.removeStream ssrc).haltRecvStream P ssrc) := by
  unfold processGoodbye at h
  obtain ⟨_, hst, h⟩ := bind_eq_ok.mp h
  refine ⟨requireState_ok hst, ?_⟩
  rcases findStream_cases s ssrc .noAutoCreate with ⟨st, _, hf⟩ | ⟨_, _, hf⟩ | ⟨_, hm, _⟩ | ⟨_, hm, _⟩
  · rw [hf] at h
    cases h
    exact .inr rfl
  · rw [hf] at h
    cases h
    exact .inl rfl
  · cases hm
  · cases hm

theorem processCname_keeps (hfind : ∀ s mode, I s → I (s.findStream chunk.ssrc mode).2)
    (hgone : ∀ s, I s → I ((s.haltRecvStream P chunk.ssrc).removeStream chunk.ssrc))
    (hstore : ∀ s s', I s → s.storeCname chunk.ssrc item.text = .ok s' → I s') (hs : I s)
    (h : s.processCname P chunk item = .ok s') : I s' := by
  have hfound : ∀ {s s1 : Reporter π} {found}, I s → s.findStream chunk.ssrc .autoCreate = (found, s1) → I s1 := by
    intro s s1 found hs hf
    have := hfind s .autoCreate hs
    rwa [hf] at this
  rcases (processCname_cases h).2 with ⟨_, rfl⟩ | ⟨_, hf⟩ | ⟨_, _, hf, _⟩ | ⟨_, _, s1, hf, _, hst⟩ |
    ⟨_, _, s1, _, s2, hf, _, hf', h⟩
  · exact hs
  · exact hfound hs hf
  · exact hfound hs hf
  · exact hstore s1 s' (hfound hs hf) hst
  · have h2 := hfound (hgone s1 (hfound hs hf)) hf'
    rcases h with ⟨_, rfl⟩ | ⟨_, hst⟩
    · exact h2
    · exact hstore s2 s' h2 hst

theorem process_keeps {report : Report} (hdetect : ∀ s ssrc, I s → I (s.detectCollision ssrc))
    (hfind : ∀ s ssrc mode, I s → I (s.findStream ssrc mode).2)
    (hset : ∀ s ssrc remote rebuild, I s → I ((s.setRemote ssrc remote rebuild).updateStream ssrc))
    (hhalt : ∀ s ssrc, I s → I (s.haltRecvStream P ssrc)) (hremove : ∀ s ssrc, I s → I (s.removeStream ssrc))
    (hstore : ∀ s s' ssrc text, I s → s.storeCname ssrc text = .ok s' → I s')
    (hs : I s) (h : s.process P report = .ok s') : I s' := by
  cases hc : report.carriesState with
  | true =>
    rw [process_eq P s hc] at h
    have h2 := hfind _ report.source report.createMode (hdetect s report.source hs)
    rcases (processReport_cases h).2 with ⟨_, rfl⟩ | ⟨_, he⟩ | ⟨_, _, he, _⟩ | ⟨_, _, _, _, _, he, _, _, rfl⟩
    · exact hdetect s _ hs
    · rwa [he] at h2
    · rwa [he] at h2
    · rw [he] at h2
      exact hset _ _ _ _ h2
  | false =>
    cases report with
    | cname chunk item =>
      exact processCname_keeps (fun s => hfind s chunk.ssrc) (fun s hs => hremove _ _ (hhalt s chunk.ssrc hs))
        (fun s s' => hstore s s' _ _) hs h
    | goodbye ssrc =>
      rcases (processGoodbye_cases h).2 with rfl | rfl
      · exact hhalt s ssrc hs
      · exact hhalt _ _ (hremove s ssrc hs)
    | _ => cases hc

theorem needRebuild_updateStream : (s.updateStream ssrc).needRebuildIndex = s.needRebuildIndex := by
  rcases updateStream_cases s ssrc with h | h <;> rw [h]

theorem needRebuild_detectCollision : (s.detectCollision ssrc).needRebuildIndex = s.needRebuildIndex := by
  rcases detectCollision_cases s ssrc with h | ⟨_, _, h⟩ | ⟨_, _, _, _, _, _, h⟩ <;> rw [h] <;> rfl

theorem indexPart_updateStream : (s.updateStream ssrc).indexPart = s.indexPart := by
  rcases updateStream_cases s ssrc with h | h <;> rw [h]
  rfl

theorem indexPart_detectCollision : (s.detectCollision ssrc).indexPart = s.indexPart := by
  rcases detectCollision_cases s ssrc with h | ⟨_, _, h⟩ | ⟨_, _, _, _, _, _, h⟩ <;> rw [h] <;> rfl

theorem effect_storeCname (h : s.storeCname ssrc text = .ok s') : Effect v s s' := by
  obtain ⟨cname, _, rfl⟩ := storeCname_ok h
  refine .of_rebuild ?_ ?_
  · rw [indexPart_updateStream, indexPart_detectCollision]
    rfl
  · rw [needRebuild_updateStream, needRebuild_detectCollision]

theorem effect_removeStream : Effect v s (s.removeStream ssrc) := .of_rebuild rfl rfl

theorem effect_haltRecvStream : Effect v s (s.haltRecvStream P ssrc) := .of_streams rfl rfl rfl

theorem effect_processCname (h : s.processCname P chunk item = .ok s') : Effect v s s' :=
  processCname_keeps (I := Effect v s) (fun _ mode hx => hx.trans (effect_findStream chunk.ssrc mode))
    (fun _ hx => (hx.trans effect_haltRecvStream).trans effect_removeStream)
    (fun _ _ hx hst => hx.trans (effect_storeCname hst)) (.refl s) h

theorem effect_processGoodbye (h : s.processGoodbye P ssrc = .ok s') : Effect v s s' := by
  rcases (processGoodbye_cases h).2 with rfl | rfl
  · exact effect_haltRecvStream
  · exact effect_removeStream.trans effect_haltRecvStream

theorem timeoutRound_cases (P : Participant π) (s : Reporter π) :
    s.timeoutRound P = .leave s ∨ ∃ ssrc stream, s.streams.find ssrc = some stream ∧
      stream.lastUpdate ≤ s.reportTime - s.config.inactivityTimeout ∧
      (s.timeoutRound P = .again (s.updateStream ssrc) ∨
        s.timeoutRound P = .again ((s.haltRecvStream P ssrc).removeStream ssrc)) := by
  unfold timeoutRound
  cases hl : s.streams.lru.getLast? with
  | none => exact .inl rfl
  | some ssrc =>
    cases hf : s.streams.find ssrc with
    | none => exact .inl (by simp only [hf])
    | some stream =>
      simp only [hf]
      by_cases hd : stream.lastUpdate > s.reportTime - s.config.inactivityTimeout
      · exact .inl (if_pos hd)
      · rw [if_neg hd]
        refine .inr ⟨ssrc, stream, hf, by omega, ?_⟩
        split
        · exact .inl rfl
        · exact .inr rfl

theorem detectTimeouts_keeps (hupdate : ∀ s ssrc, I s → I (s.updateStream ssrc))
    (hremove : ∀ s ssrc, I s → I ((s.haltRecvStream P ssrc).removeStream ssrc)) (hs : I s)
    (h : s.detectTimeouts P = .ok s') : I s' := by
  refine Loop.repeatUntil_keeps ?_ ?_ hs h
  · intro s s' hs hr
    rcases timeoutRound_cases P s with he | ⟨ssrc, _, _, _, he | he⟩ <;> rw [he] at hr <;> cases hr
    · exact hupdate s ssrc hs
    · exact hremove s ssrc hs
  · intro s s' hs hr
    rcases timeoutRound_cases P s with he | ⟨ssrc, _, _, _, he | he⟩ <;> rw [he] at hr <;> cases hr
    exact hs

theorem effect_detectTimeouts (hv : Blind v) (h : s.detectTimeouts P = .ok s') : Effect v s s' := by
  refine detectTimeouts_keeps (I := Effect v s) ?_ ?_ (.refl s) h
  · intro x ssrc hx
    exact hx.trans (effect_updateStream hv)
  · intro x ssrc hx
    exact (hx.trans effect_haltRecvStream).trans effect_removeStream

theorem notifyStream_frame (h : s.notifyStream P isSending ssrc stream = .ok (code, s')) :
    ∃ participant notices, s' = { s with participant, notices } := by
  have hsend : ∀ (s s' : Reporter π) code, s.notifySendStream P ssrc stream = .ok (code, s') →
      ∃ participant notices, s' = { s with participant, notices } := by
    intro s s' code h
    unfold notifySendStream at h
    dsimp only at h
    split at h
    · cases h
    · cases h
      exact ⟨_, _, rfl⟩
  have hrecv : ∀ (s s' : Reporter π) code, s.notifyRecvStream P ssrc stream = .ok (code, s') →
      ∃ participant notices, s' = { s with participant, notices } := by
    intro s s' code h
    unfold notifyRecvStream at h
    dsimp only at h
    split at h
    · cases h
    · cases h
      exact ⟨_, _, rfl⟩
  unfold notifyStream at h
  obtain ⟨⟨code1, s1⟩, h1, h⟩ := bind_eq_ok.mp h
  have hf1 : ∃ participant notices, s1 = { s with participant, notices } := by
    split at h1
    · exact hsend _ _ _ h1
    · cases h1
      exact ⟨_, _, rfl⟩
  obtain ⟨p1, n1, rfl⟩ := hf1
  dsimp only at h
  split at h
  · cases h
    exact ⟨_, _, rfl⟩
  · split at h
    · obtain ⟨p2, n2, rfl⟩ := hrecv _ _ _ h
      exact ⟨_, _, rfl⟩
    · cases h
      exact ⟨_, _, rfl⟩

theorem notifyFrom_frame {l : List UInt32} : ∀ {s s' : Reporter π}
    {code : StatusCode}, notifyFrom P isSending l s = .ok (code, s') →
    ∃ participant notices, s' = { s with participant, notices } := by
  induction l with
  | nil =>
    intro s s' code h
    cases h
    exact ⟨_, _, rfl⟩
  | cons ssrc l ih =>
    intro s s' code h
    unfold notifyFrom at h
    cases hf : s.streams.find ssrc with
    | none =>
      rw [hf] at h
      cases h
      exact ⟨_, _, rfl⟩
    | some stream =>
      simp only [hf] at h
      split at h
      · cases h
        exact ⟨_, _, rfl⟩
      · split at h
        · exact ih h
        · cases hn : s.notifyStream P isSending ssrc stream with
          | error e => rw [hn] at h; cases h
          | ok r =>
            obtain ⟨code1, s1⟩ := r
            rw [hn] at h
            obtain ⟨p1, n1, rfl⟩ := notifyStream_frame hn
            cases code1 with
            | ok =>
              obtain ⟨p2, n2, rfl⟩ := ih h
              exact ⟨_, _, rfl⟩
            | _ => cases h; exact ⟨_, _, rfl⟩

theorem notifyStreams_frame (h : s.notifyStreams P = .ok (code, s')) :
    ∃ participant notices, s' = { s with participant, notices } := by
  unfold notifyStreams at h
  split at h
  · cases h
    exact ⟨_, _, rfl⟩
  · exact notifyFrom_frame h

/-- `end_processing` is a timeout check, and then no change but for notices and participant. -/
theorem endProcessing_cases (h : s.endProcessing P = .ok (code, s')) :
    s.reportState = .processing ∧ ∃ s1 participant notices, s.detectTimeouts P = .ok s1 ∧
      s' = { s1 with participant, notices, reportState := .idle } := by
  unfold endProcessing at h
  obtain ⟨_, hst, h⟩ := bind_eq_ok.mp h
  obtain ⟨s1, ht, h⟩ := bind_eq_ok.mp h
  obtain ⟨⟨code1, s2⟩, hn, h⟩ := bind_eq_ok.mp h
  obtain ⟨p, n, rfl⟩ := notifyStreams_frame hn
  refine ⟨requireState_ok hst, s1, p, n, ht, ?_⟩
  dsimp only at h
  split at h <;> cases h <;> rfl

theorem effect_endProcessing (hv : Blind v) (h : s.endProcessing P = .ok (code, s')) : Effect v s s' := by
  obtain ⟨_, s1, p, n, ht, rfl⟩ := endProcessing_cases h
  exact (effect_detectTimeouts hv ht).trans (.of_streams rfl rfl rfl)

/-- A `generate_*` call remembers that it was made, or the loss it has reported. -/
theorem generate_cases (h : s.generate P element = .ok s') :
    (∃ sr rr reported, s' = { s with currentSr := sr, currentRr := rr, collisionReported := reported }) ∨
    ∃ ssrc loss, s' = s.modifyStream ssrc fun stream => { stream with localRecvLoss := loss } := by
  have hsame : ∀ {α : Type} {x : Except Fault α}, (do let _ ← x; return s) = .ok s' →
      ∃ sr rr reported, s' = { s with currentSr := sr, currentRr := rr, collisionReported := reported } := by
    intro α x h
    obtain ⟨_, _, h⟩ := bind_eq_ok.mp h
    cases h
    exact ⟨_, _, _, rfl⟩
  cases element with
  | sr =>
    obtain ⟨_, hg, h⟩ := bind_eq_ok.mp h
    unfold generateSr at hg
    obtain ⟨_, _, hg⟩ := bind_eq_ok.mp hg
    split at hg
    · obtain ⟨_, he, _⟩ := bind_eq_ok.mp hg
      cases he
    · obtain ⟨_, _, hg⟩ := bind_eq_ok.mp hg
      cases hg
      cases h
      exact .inl ⟨_, _, _, rfl⟩
  | rr =>
    obtain ⟨_, hg, h⟩ := bind_eq_ok.mp h
    obtain ⟨_, _, hg⟩ := bind_eq_ok.mp hg
    cases hg
    cases h
    exact .inl ⟨_, _, _, rfl⟩
  | goodbye =>
    obtain ⟨_, hg, h⟩ := bind_eq_ok.mp h
    obtain ⟨_, _, hg⟩ := bind_eq_ok.mp hg
    cases hg
    cases h
    dsimp only
    split <;> exact .inl ⟨_, _, _, rfl⟩
  | receptionBlock i j =>
    obtain ⟨_, hg, h⟩ := bind_eq_ok.mp h
    obtain ⟨_, _, hg⟩ := bind_eq_ok.mp hg
    obtain ⟨_, _, hg⟩ := bind_eq_ok.mp hg
    obtain ⟨_, _, hg⟩ := bind_eq_ok.mp hg
    obtain ⟨_, _, hg⟩ := bind_eq_ok.mp hg
    cases hg
    cases h
    exact .inr ⟨_, _, rfl⟩
  | _ => exact .inl (hsame h)

theorem effect_generate (hv : Blind v) (h : s.generate P element = .ok s') : Effect v s s' := by
  rcases generate_cases h with ⟨_, _, _, rfl⟩ | ⟨_, _, rfl⟩
  · exact .of_streams rfl rfl rfl
  · exact .modify fun stream _ => hv.localRecvLoss _ _ _

theorem pickSourceId_cases (s : Reporter π) : (∃ participant ssrc, s.pickSourceId P =
      .again { s with participant, localSourceId := ssrc }) ∨
    ∃ participant ssrc, s.streams.find ssrc = none ∧ s.pickSourceId P =
      .leave { s with participant, localSourceId := ssrc } := by
  simp only [pickSourceId]
  rcases findStream_cases { s with
      participant := P.changeSourceId s.participant
      localSourceId := (P.participantInfo (P.changeSourceId s.participant)).sourceId }
      (P.participantInfo (P.changeSourceId s.participant)).sourceId .noAutoCreate with
    ⟨_, _, hf⟩ | ⟨hfree, _, hf⟩ | ⟨_, hm, _⟩ | ⟨_, hm, _⟩
  · rw [hf]
    exact .inl ⟨_, _, rfl⟩
  · rw [hf]
    exact .inr ⟨_, _, hfree, rfl⟩
  · cases hm
  · cases hm

theorem resolveCollision_cases (h : s.resolveCollision P = .ok s') : (s.collisionDetected = false ∧ s' = s) ∨
    (s.collisionDetected = true ∧ s.collisionReported = true ∧ ∃ participant ssrc,
      s.streams.find ssrc = none ∧ s' = { s with
        participant := participant
        localSourceId := ssrc
        streams := s.streams.mapValues fun stream =>
          if stream.hasRemoteRecvReport then
            { stream with remoteRecvReport := { stream.remoteRecvReport with senderSourceId := ssrc } }
          else stream
        collisionDetected := false
        collisionReported := false }) := by
  unfold resolveCollision at h
  cases hd : s.collisionDetected with
  | false =>
    rw [hd] at h
    cases h
    exact .inl ⟨rfl, rfl⟩
  | true =>
    rw [hd] at h
    cases hr : s.collisionReported with
    | false => rw [hr] at h; cases h
    | true =>
      simp only [hr, Bool.not_true, Bool.false_eq_true, if_false, pure_eq_ok] at h
      obtain ⟨s1, hl, h⟩ := bind_eq_ok.mp h
      cases h
      -- every round changes the participant and the SSRC, the last one to a free SSRC
      have hrounds : ∃ participant ssrc, s1 = { s with participant, localSourceId := ssrc } ∧
          s.streams.find ssrc = none := by
        refine Loop.repeatUntil_keeps (I := fun x : Reporter π => ∃ participant ssrc,
            x = { s with participant, localSourceId := ssrc })
          (Q := fun x : Reporter π => ∃ participant ssrc, x = { s with participant, localSourceId := ssrc } ∧
              s.streams.find ssrc = none) ?_ ?_ ⟨_, _, rfl⟩ hl
        · rintro x x' ⟨_, _, rfl⟩ hround
          rcases pickSourceId_cases (P := P) _ with ⟨_, _, he⟩ | ⟨_, _, _, he⟩ <;> rw [he] at hround <;> cases hround
          exact ⟨_, _, rfl⟩
        · rintro x x' ⟨_, _, rfl⟩ hround
          rcases pickSourceId_cases (P := P) _ with ⟨_, _, he⟩ | ⟨_, _, hfree, he⟩ <;>
            rw [he] at hround <;> cases hround
          exact ⟨_, _, rfl, hfree⟩
      obtain ⟨p, ssrc, rfl, hnone⟩ := hrounds
      exact .inr ⟨rfl, rfl, p, ssrc, hnone, rfl⟩

/-- The SSRC that a participant offers in round `i`. -/
def offered (P : Participant π) (participant : π) (i : Nat) : UInt32 :=
  (P.participantInfo (P.changeSourceId^[i + 1] participant)).sourceId

theorem pickSourceId_rounds : ∀ (fuel : Nat) (s : Reporter π),
    (∃ s', Loop.repeatUntil (fun s => .ok (s.pickSourceId P)) Fault.outOfFuel fuel s = .ok s') ∨
      ∀ i < fuel, offered P s.participant i ∈ s.streams.lru := by
  intro fuel
  induction fuel with
  | zero => exact fun _ => .inr nofun
  | succ fuel ih =>
    intro s
    unfold Loop.repeatUntil pickSourceId findStream
    cases hf : s.streams.find (offered P s.participant 0) with
    | none =>
      rw [offered, Function.iterate_one] at hf
      simp [hf]
    | some stream =>
      have hmem := LruTable.mem_lru.mpr ⟨stream, hf⟩
      rw [offered, Function.iterate_one] at hf
      simp only [hf, Option.isSome_some, if_true]
      refine (ih _).imp_right fun hall i hi => ?_
      cases i with
      | zero => exact hmem
      | succ i => exact hall i (by omega)

/-- The rounds suffice for a participant that never offers the same SSRC twice. -/
theorem resolveCollision_returns (hreported : s.collisionReported = true)
    (hfresh : Function.Injective (offered P s.participant)) : ∃ s', s.resolveCollision P = .ok s' := by
  rcases pickSourceId_rounds (P := P) (s.streams.lru.length + 1) s with ⟨s', hs'⟩ | hall
  · unfold resolveCollision
    cases s.collisionDetected <;> simp [hreported, hs']
  · have hsub : (List.range (s.streams.lru.length + 1)).map (offered P s.participant) ⊆ s.streams.lru := by
      simpa [List.subset_def] using hall
    have := ((List.nodup_range.map hfresh).subperm hsub).length_le
    simp at this

theorem effect_resolveCollision (hv : Blind v) (h : s.resolveCollision P = .ok s') : Effect v s s' := by
  rcases resolveCollision_cases h with ⟨_, rfl⟩ | ⟨_, _, p, ssrc, _, rfl⟩
  · exact .refl _
  · refine ⟨rfl, .inr ⟨rfl, ?_⟩⟩
    have hmap : ∀ f, (∀ stream, v s.indexPart (f stream) = v s.indexPart stream) → s.streams.Extends
        (fun a b => v s.indexPart b = v s.indexPart a) (fun _ => False) (s.streams.mapValues f) :=
      fun _ hf => .mapValues hf
    refine hmap _ fun stream => ?_
    split
    · exact hv.senderSourceId _ _ _
    · rfl

theorem endGeneration_cases (h : s.endGeneration P = .ok (code, s')) :
    s.reportState = .generating ∧ ∃ s1, resolveCollision P { s with reportState := .idle } = .ok s1 ∧
      s1.detectTimeouts P = .ok s' := by
  obtain ⟨_, hst, h⟩ := bind_eq_ok.mp h
  obtain ⟨s1, hr, h⟩ := bind_eq_ok.mp h
  obtain ⟨s2, ht, h⟩ := bind_eq_ok.mp h
  cases h
  exact ⟨requireState_ok hst, s1, hr, ht⟩

theorem effect_endGeneration (hv : Blind v) (h : s.endGeneration P = .ok (code, s')) : Effect v s s' := by
  obtain ⟨_, s1, hr, ht⟩ := endGeneration_cases h
  have h0 : Effect v s { s with reportState := .idle } := .of_streams rfl rfl rfl
  exact (h0.trans (effect_resolveCollision hv hr)).trans (effect_detectTimeouts hv ht)

/-- The effect of any call but `begin_*`, given what it is for the report of a `process_*` call. -/
theorem effect_call (hv : Blind v)
    (hloop : s.LoopsMarked ∨ ∀ p stream, v p { stream with isLooped := true } = v p stream)
    {c : Call π} (hbegin : c.isBegin = false)
    (hreport : ∀ report stream remote rebuild, c = .process report → s.streams.find report.source = some stream →
      s.applyReport report stream.toRemoteState = .ok (remote, rebuild) →
      rebuild = true ∨ s.needRebuildIndex = true ∨ ∀ x : Stream, x.toRemoteState = stream.toRemoteState →
        v s.indexPart { x with toRemoteState := remote } = v s.indexPart x)
    (hc : CallStep P s c s') : Effect v s s' := by
  obtain ⟨code, hc⟩ := hc
  cases c with
  | environment participant => cases hc; exact .of_streams rfl rfl rfl
  | beginProcessing reportAddr reportTime => cases hbegin
  | beginGeneration reportTime => cases hbegin
  | process report =>
    obtain ⟨s1, hp, hc⟩ := bind_eq_ok.mp hc
    cases hc
    cases hcarry : report.carriesState with
    | true =>
      rw [process_eq P s hcarry] at hp
      exact effect_processReport hv hloop (fun stream remote rebuild =>
        hreport report stream remote rebuild rfl) hp
    | false =>
      cases report with
      | cname chunk item => exact effect_processCname hp
      | goodbye ssrc => exact effect_processGoodbye hp
      | _ => cases hcarry
  | endProcessing => exact effect_endProcessing hv hc
  | generate element =>
    obtain ⟨s1, hg, hc⟩ := bind_eq_ok.mp hc
    cases hc
    exact effect_generate hv hg
  | endGeneration => exact effect_endGeneration hv hc

end

/-! ## What `process_*` leaves alone -/

/-- Only the streams, the collision flags, the error, the memory left and the participant may
differ. -/
def SameCall (s s' : Reporter π) : Prop :=
  ∃ streams nextStream need detected reported error arena participant, s' = { s with
    streams, nextStream, needRebuildIndex := need
    collisionDetected := detected, collisionReported := reported, reportError := error
    arena, participant }

section
variable {P : Participant π} {s s' s'' : Reporter π} {ssrc : UInt32}

theorem SameCall.refl (s : Reporter π) : s.SameCall s := ⟨_, _, _, _, _, _, _, _, rfl⟩

theorem SameCall.trans (h : s.SameCall s') (h' : s'.SameCall s'') : s.SameCall s'' := by
  obtain ⟨_, _, _, _, _, _, _, _, rfl⟩ := h
  obtain ⟨_, _, _, _, _, _, _, _, rfl⟩ := h'
  exact ⟨_, _, _, _, _, _, _, _, rfl⟩

theorem sameCall_updateStream (ssrc : UInt32) : s.SameCall (s.updateStream ssrc) := by
  rcases updateStream_cases s ssrc with h | h <;> rw [h]
  · exact .refl s
  · exact ⟨_, _, _, _, _, _, _, _, rfl⟩

theorem sameCall_findStream (ssrc : UInt32) (mode : CreateMode) : s.SameCall (s.findStream ssrc mode).2 := by
  rcases findStream_cases s ssrc mode with ⟨_, _, h⟩ | ⟨_, _, h⟩ | ⟨_, _, h⟩ | ⟨_, _, h⟩ <;> rw [h] <;>
    exact ⟨_, _, _, _, _, _, _, _, rfl⟩

theorem sameCall_detectCollision : s.SameCall (s.detectCollision ssrc) := by
  rcases detectCollision_cases s ssrc with h | ⟨_, _, h⟩ | ⟨_, _, _, _, _, _, h⟩ <;> rw [h] <;>
    exact ⟨_, _, _, _, _, _, _, _, rfl⟩

theorem sameCall_setRemote (remote : RemoteState) (rebuild : Bool) :
    s.SameCall (s.setRemote ssrc remote rebuild) := ⟨_, _, _, _, _, _, _, _, rfl⟩

theorem sameCall_storeCname {text : CString} (h : s.storeCname ssrc text = .ok s') : s.SameCall s' := by
  obtain ⟨cname, _, rfl⟩ := storeCname_ok h
  refine SameCall.trans (SameCall.trans ?_ sameCall_detectCollision) (sameCall_updateStream _)
  exact ⟨_, _, _, _, _, _, _, _, rfl⟩

variable {report : Report}

theorem sameCall_process (h : s.process P report = .ok s') : s.SameCall s' := by
  refine process_keeps (I := s.SameCall) ?_ ?_ ?_ ?_ ?_ ?_ (.refl s) h
  · exact fun x ssrc hx => hx.trans sameCall_detectCollision
  · exact fun x ssrc mode hx => hx.trans (sameCall_findStream ssrc mode)
  · exact fun x ssrc remote rebuild hx =>
      (hx.trans (sameCall_setRemote remote rebuild)).trans (sameCall_updateStream ssrc)
  · exact fun x ssrc hx => hx.trans ⟨_, _, _, _, _, _, _, _, rfl⟩
  · exact fun x ssrc hx => hx.trans ⟨_, _, _, _, _, _, _, _, rfl⟩
  · exact fun x x' ssrc text hx hst => hx.trans (sameCall_storeCname hst)

/-- A report is processed only between `begin_processing` and `end_processing`. -/
theorem process_state (h : s.process P report = .ok s') : s.reportState = .processing := by
  cases hc : report.carriesState with
  | true =>
    rw [process_eq P s hc] at h
    exact (processReport_cases h).1
  | false =>
    cases report with
    | cname chunk item => exact (processCname_cases h).1
    | goodbye ssrc => exact (processGoodbye_cases h).1
    | _ => cases hc

end

end Reporter
end Roc.Rtcp
