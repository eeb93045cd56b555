import RocToolkit.Rtcp.Index

/-!
# RocToolkit.Rtcp.Freshness

Over a whole run of calls: when is the destination index the one that a rebuild from scratch would
make, and when does a stream listed as receiving point to a report of its own.

The index is a cache that `need_rebuild_index_` guards, and four things can change what it should hold
without setting the flag: an RRTR (or, if reports go back to the sender, an SR) that makes a zero
timestamp non-zero or the other way round, a send stream that appears or disappears, receiving streams
that change places, and a rebuild at a time at which an address was rebuilt before. `IndexSteady`
rules them out call by call.
-/

namespace Roc.Rtcp.Reporter

open IndexPart LruTable.Extends

variable {π : Type} {P : Participant π} {s s' : Reporter π} {ssrc : UInt32}

/-! ## Our own streams are marked -/

/-- Every stream of the second table is one of the first with its CNAME and mark, or has no CNAME. -/
def Descends (t t' : LruTable UInt32 Stream) : Prop :=
  ∀ k stream', t'.find k = some stream' → (∃ stream, t.find k = some stream ∧
    stream'.cname = stream.cname ∧ stream'.isLooped = stream.isLooped) ∨ stream'.cname = .empty

variable {t t' : LruTable UInt32 Stream} {p : IndexPart} {items : List RecvReport}
  {remote : RemoteState} {s1 s2 : Reporter π} {code : StatusCode} {state : ReportState}
  {reportTime : Int} {c : Call π}

theorem Descends.of_extends {Q : Stream → Stream → Prop} {N : Stream → Prop} (h : t.Extends Q N t')
    (hQ : ∀ a b, Q a b → b.cname = a.cname ∧ b.isLooped = a.isLooped) (hN : ∀ a, N a → a.cname = .empty) :
    Descends t t' := by
  intro k stream' hf
  rcases h.find_back hf with ⟨stream, hst, hq⟩ | hn
  · exact .inl ⟨stream, hst, hQ _ _ hq⟩
  · exact .inr (hN _ hn)

theorem Descends.remove (t : LruTable UInt32 Stream) (k : UInt32) : Descends t (t.remove k) := by
  intro j stream hf
  rw [LruTable.find_remove] at hf
  split at hf
  · cases hf
  · exact .inl ⟨stream, hf, rfl, rfl⟩

theorem empty_ne_localCname (s : Reporter π) : Cname.empty ≠ s.localCname := by
  intro h
  have := s.localCname_ne
  rw [← h] at this
  exact this rfl

section
variable (h : s.LoopsMarked)
include h

theorem LoopsMarked.descends (hd : Descends s.streams s'.streams)
    (hid : s'.localSourceId = s.localSourceId) (hname : s'.localCname = s.localCname)
    (hcol : s'.collisionDetected = s.collisionDetected) : s'.LoopsMarked := by
  intro stream' hf hc
  rw [hid] at hf
  rw [hname] at hc
  rw [hcol]
  rcases hd _ _ hf with ⟨stream, hst, hcn, hl⟩ | he
  · rw [hl]
    exact h stream hst (hcn ▸ hc)
  · exact absurd (he.symm.trans hc) (empty_ne_localCname s)

theorem LoopsMarked.updateStream : (s.updateStream ssrc).LoopsMarked := by
  rcases updateStream_cases s ssrc with he | he <;> rw [he]
  · exact h
  · refine h.descends ?_ rfl rfl rfl
    refine Descends.of_extends (Q := fun a b => b.cname = a.cname ∧ b.isLooped = a.isLooped)
      (N := fun _ => False) ?_ (fun _ _ h => h) fun _ h => h.elim
    exact modify_touch (fun _ => ⟨rfl, rfl⟩) fun _ _ => ⟨rfl, rfl⟩

theorem LoopsMarked.modifyStream {f : Stream → Stream} (hf : ∀ a, (f a).cname = a.cname ∧ (f a).isLooped = a.isLooped) :
    (s.modifyStream ssrc f).LoopsMarked := by
  refine h.descends ?_ rfl rfl rfl
  refine Descends.of_extends (Q := fun a b => b.cname = a.cname ∧ b.isLooped = a.isLooped)
    (N := fun _ => False) ?_ (fun _ _ h => h) fun _ h => h.elim
  exact modify (fun _ => ⟨rfl, rfl⟩) fun a _ => hf a

theorem LoopsMarked.findStream (ssrc : UInt32) (mode : CreateMode) : (s.findStream ssrc mode).2.LoopsMarked := by
  rcases findStream_cases s ssrc mode with ⟨_, _, he⟩ | ⟨_, _, he⟩ | ⟨_, _, he⟩ | ⟨hn, _, he⟩ <;> rw [he]
  · exact h
  · exact h
  · exact h
  · refine h.descends ?_ rfl rfl rfl
    refine Descends.of_extends (Q := fun a b => b.cname = a.cname ∧ b.isLooped = a.isLooped)
      (N := fun a => a.cname = .empty) ?_ (fun _ _ h => h) fun _ h => h
    exact insert (fun _ => ⟨rfl, rfl⟩) hn rfl

end

theorem LoopsMarked.of_detectCollision (h : ssrc ≠ s.localSourceId → s.LoopsMarked) :
    (s.detectCollision ssrc).LoopsMarked := by
  unfold Reporter.detectCollision
  cases hd : s.collisionDetected with
  | true =>
    intro stream _ _
    exact .inr hd
  | false =>
    by_cases hl : ssrc = s.localSourceId
    · rw [if_neg (by simp), if_neg (not_not.mpr hl)]
      cases hf : s.streams.find ssrc with
      | none => intro stream _ _; exact .inr rfl
      | some stream =>
        dsimp only
        by_cases hloop : stream.isLooped = true
        · rw [if_pos hloop]
          intro stream' hf' _
          rw [← hl, hf] at hf'
          cases hf'
          exact .inl hloop
        · rw [if_neg hloop]
          by_cases hc : stream.cname = s.localCname
          · rw [if_pos hc]
            intro stream' hf' _
            have hf' : (s.streams.modify ssrc _).find s.localSourceId = some stream' := hf'
            rw [LruTable.find_modify, if_pos hl.symm, hf] at hf'
            cases hf'
            exact .inl rfl
          · rw [if_neg hc]
            intro stream' _ _
            exact .inr rfl
    · rw [if_neg (by simp), if_pos hl]
      exact h hl

section
variable (h : s.LoopsMarked)
include h

open LoopsMarked

theorem LoopsMarked.storeCname {text : CString} (hs : s.storeCname ssrc text = .ok s') : s'.LoopsMarked := by
  obtain ⟨cname, _, rfl⟩ := storeCname_ok hs
  refine updateStream (.of_detectCollision fun hne => ?_)
  intro stream hf hc
  have hf : (s.streams.modify ssrc _).find s.localSourceId = some stream := hf
  have hne : s.localSourceId ≠ ssrc := Ne.symm hne
  rw [LruTable.find_modify, if_neg hne] at hf
  exact h stream hf hc

theorem LoopsMarked.removeStream : (s.removeStream ssrc).LoopsMarked := h.descends (.remove _ _) rfl rfl rfl

theorem LoopsMarked.process {report : Report} (hp : s.process P report = .ok s') : s'.LoopsMarked := by
  refine process_keeps (I := LoopsMarked) ?_ ?_ ?_ ?_ ?_ ?_ h hp
  · exact fun _ _ hx => .of_detectCollision fun _ => hx
  · exact fun _ ssrc mode hx => hx.findStream ssrc mode
  · intro x _ _ _ hx
    refine updateStream ?_
    exact modifyStream (s := x) hx fun a => ⟨rfl, rfl⟩
  · exact fun _ _ hx => hx
  · exact fun _ _ hx => hx.removeStream
  · exact fun _ _ _ _ hx hst => hx.storeCname hst

theorem LoopsMarked.detectTimeouts (ht : s.detectTimeouts P = .ok s') : s'.LoopsMarked :=
  detectTimeouts_keeps (fun _ _ hs => hs.updateStream)
    (fun s ssrc hs => removeStream (s := s.haltRecvStream P ssrc) hs) h ht

theorem LoopsMarked.resolveCollision (hr : s.resolveCollision P = .ok s') : s'.LoopsMarked := by
  rcases resolveCollision_cases hr with ⟨_, rfl⟩ | ⟨_, _, p, ssrc, hnone, rfl⟩
  · exact h
  · intro stream hf _
    have hf : (s.streams.mapValues _).find ssrc = some stream := hf
    rw [LruTable.find_mapValues, hnone] at hf
    cases hf

variable {code : StatusCode}

theorem LoopsMarked.refreshStreams (hr : s.refreshStreams P = .ok (code, s')) : s'.LoopsMarked := by
  rcases refreshStreams_cases hr with ⟨_, _, _, _, _, rfl⟩ | ⟨_, _, _, _, rfl⟩ |
    ⟨_, s1, code2, s2, ⟨_, _, _, rfl⟩, hb, hcase⟩
  · exact h
  · exact h
  · have h2 : s2.LoopsMarked := by
      obtain ⟨⟨_, _, _, _, _, _, rfl⟩, hg⟩ := rebuildIndex_frame hb
      refine descends (s := s) h ?_ rfl rfl rfl
      refine Descends.of_extends hg ?_ ?_
      · rintro a b ⟨_, rfl⟩
        exact ⟨rfl, rfl⟩
      · rintro a ⟨_, _, _, rfl⟩
        rfl
    rcases hcase with ⟨_, _, rfl⟩ | ⟨_, _, rfl⟩
    · exact h2
    · exact h2

theorem LoopsMarked.beginReport {state : ReportState} {reportTime : Int}
    (hb : s.beginReport P state reportTime = .ok (code, s')) : s'.LoopsMarked := by
  obtain ⟨_, _, s1, hr, hcase⟩ := beginReport_cases hb
  have h1 : s1.LoopsMarked := refreshStreams (by exact h) hr
  rcases hcase with ⟨_, rfl⟩ | ⟨_, rfl⟩
  · exact h1
  · exact h1

theorem LoopsMarked.call {c : Call π} (hc : CallStep P s c s') : s'.LoopsMarked := by
  obtain ⟨code, hc⟩ := hc
  cases c with
  | environment participant => cases hc; exact h
  | beginProcessing reportAddr reportTime => exact beginReport (by exact h) hc
  | beginGeneration reportTime => exact h.beginReport hc
  | process report =>
    obtain ⟨s1, hp, hc⟩ := bind_eq_ok.mp hc
    cases hc
    exact h.process hp
  | endProcessing =>
    obtain ⟨_, s1, _, _, ht, rfl⟩ := endProcessing_cases hc
    have h1 : s1.LoopsMarked := h.detectTimeouts ht
    exact h1
  | generate element =>
    obtain ⟨s1, hg, hc⟩ := bind_eq_ok.mp hc
    cases hc
    rcases generate_cases hg with ⟨_, _, _, rfl⟩ | ⟨_, _, rfl⟩
    · exact h
    · exact h.modifyStream fun a => ⟨rfl, rfl⟩
  | endGeneration =>
    obtain ⟨_, s1, hr, ht⟩ := endGeneration_cases hc
    exact detectTimeouts (resolveCollision (by exact h) hr) ht

end

theorem initial_cases (h : Initial P s) : s.streams = .empty ∧ s.needRebuildIndex = true ∧ s.reportState = .idle := by
  obtain ⟨config, participant, arena, hn⟩ := h
  unfold Reporter.new at hn
  dsimp only at hn
  split at hn
  · cases hn
  · split at hn
    · cases hn
    · split at hn
      · cases hn
        exact ⟨rfl, rfl, rfl⟩
      · cases hn

theorem LoopsMarked.initial (h : Initial P s) : s.LoopsMarked := by
  intro stream hf _
  rw [(initial_cases h).1] at hf
  cases hf

/-! ## What the index shows of the streams -/

def indexView (p : IndexPart) (stream : Stream) : Nat × Option SocketAddr × Option SocketAddr :=
  (stream.id, p.sendDestination stream, p.recvDestination stream)

def linkView (_ : IndexPart) (stream : Stream) : Nat × Option ReportPtr := (stream.id, stream.localRecvReport)

theorem indexView_blind : Blind indexView := ⟨fun _ _ _ => rfl, fun _ _ _ => rfl, fun _ _ _ => rfl⟩

theorem linkView_blind : Blind linkView := ⟨fun _ _ _ => rfl, fun _ _ _ => rfl, fun _ _ _ => rfl⟩

def Planned (p : IndexPart) (streams : LruTable UInt32 Stream) : Prop := p.Holds (p.plan streams) ∧
    ∀ r ∈ p.localRecvReports.items, ∃ stream, streams.find r.senderSourceId = some stream

section
variable {p : IndexPart} {t t' : LruTable UInt32 Stream}
  (h : t.Extends (fun a b => indexView p b = indexView p a) (fun _ => False) t')
include h

theorem plan_extends : p.plan t' = p.plan t := by
  have hsend : t'.entries.filterMap p.sendEntry = t.entries.filterMap p.sendEntry := by
    refine h.filterMap ?_ fun _ _ hn => hn.elim
    intro k a b hab
    obtain ⟨hid, hs, _⟩ : _ ∧ _ ∧ _ := by simpa [indexView] using hab
    unfold sendEntry
    rw [hid, hs]
  have hrecv : ∀ r, p.recvEntry t' r = p.recvEntry t r := by
    intro r
    unfold recvEntry
    cases hf : t.find r.senderSourceId with
    | some a =>
      obtain ⟨b, hb, hab⟩ := h.find hf
      obtain ⟨hid, _, hr⟩ : _ ∧ _ ∧ _ := by simpa [indexView] using hab
      rw [hb, Option.bind_some, Option.bind_some, hid, hr]
    | none =>
      cases hf' : t'.find r.senderSourceId with
      | none => rfl
      | some b =>
        rcases h.find_back hf' with ⟨a, ha, _⟩ | hn
        · rw [hf] at ha
          cases ha
        · exact hn.elim
  unfold plan sendPlan recvPlan
  rw [hsend, List.filterMap_congr fun r _ => hrecv r]

theorem Planned.extends (hp : Planned p t) : Planned p t' := by
  refine ⟨by rw [plan_extends h]; exact hp.1, ?_⟩
  intro r hr
  obtain ⟨a, ha⟩ := hp.2 r hr
  obtain ⟨b, hb, _⟩ := h.find ha
  exact ⟨b, hb⟩

end

theorem recvLinked_extends (h : t.Extends (fun a b => linkView p b = linkView p a) (fun _ => False) t')
    (hp : p.RecvLinked t) : p.RecvLinked t' := by
  intro addr address hf ptr hptr
  obtain ⟨a, i, report, ha, hid, hlink, hrest⟩ := hp addr address hf ptr hptr
  obtain ⟨b, hb, hab⟩ := h.find ha
  obtain ⟨hid', hlink'⟩ : _ ∧ _ := by simpa [linkView] using hab
  exact ⟨b, i, report, hb, hid'.trans hid, hlink'.trans hlink, hrest⟩

def senders (reports : List RecvReport) : List UInt32 := reports.map RecvReport.senderSourceId

theorem recvPlan_senders {l l' : List RecvReport} (h : senders l' = senders l) : p.recvPlan t l' = p.recvPlan t l := by
  have hvia : ∀ l : List RecvReport, p.recvPlan t l = (senders l).filterMap fun ssrc =>
      p.recvEntry t { senderSourceId := ssrc } := by
    intro l
    unfold senders recvPlan
    rw [List.filterMap_map]
    rfl
  rw [hvia, hvia, h]

theorem Planned.rewrite (hp : Planned p t) (h : senders items = senders p.localRecvReports.items) :
    Planned { p with localRecvReports := { p.localRecvReports with items } } t := by
  have hplan : plan { p with localRecvReports :=
      { p.localRecvReports with items } } t = p.plan t := by
    show p.sendPlan t ++ p.recvPlan t items = _
    rw [recvPlan_senders h]
    rfl
  refine ⟨?_, ?_⟩
  · rw [hplan]
    exact ⟨hp.1.keys, hp.1.lists⟩
  · intro r hr
    have hm : r.senderSourceId ∈ senders p.localRecvReports.items := by
      rw [← h]
      exact List.mem_map.mpr ⟨r, hr, rfl⟩
    obtain ⟨r', hr', he⟩ := List.mem_map.mp hm
    rw [← he]
    exact hp.2 r' hr'

theorem recvLinked_rewrite (hp : p.RecvLinked t) (h : senders items = senders p.localRecvReports.items) (send : Bool) :
    IndexPart.RecvLinked { p with
      localRecvReports := { p.localRecvReports with items }
      hasLocalSendReport := send } t := by
  intro addr address hf ptr hptr
  obtain ⟨a, i, report, ha, hid, hlink, hi, hs⟩ := hp addr address hf ptr hptr
  have hi' : (senders items)[i]? = some ptr.sourceId := by
    rw [h, senders, List.getElem?_map, hi, Option.map_some, hs]
  rw [senders, List.getElem?_map] at hi'
  obtain ⟨report', hr', hs'⟩ := Option.map_eq_some_iff.mp hi'
  exact ⟨a, i, report', ha, hid, hlink, hr', hs'⟩

/-! ## Calls that do not make the index stale -/

/-- The report leaves alone whether the timestamp that lists its stream is zero, or a new index is
due anyway. -/
def ReportSteady (s : Reporter π) : Report → Prop
  | .rrtr xr blk => s.needRebuildIndex = true ∨
      ∀ stream, s.streams.find xr.ssrc = some stream → stream.hasRemoteRecvReport = true →
        (Packet.ntp2Unix blk.ntpTimestamp = 0 ↔ stream.remoteRecvReport.reportTimestamp = 0)
  | .sr sr => s.needRebuildIndex = true ∨ s.participantReportMode = .toAddress ∨
      ∀ stream, s.streams.find sr.ssrc = some stream → stream.hasRemoteSendReport = true →
        (Packet.ntp2Unix sr.ntpTimestamp = 0 ↔ stream.remoteSendReport.reportTimestamp = 0)
  | _ => True

def TimeSteady (P : Participant π) (s : Reporter π) : Prop :=
  Noticed P s → ∀ addr address, s.addresses.find addr = some address → address.lastRebuild ≠ s.reportTime

def SendersSteady (P : Participant π) (s : Reporter π) : Prop :=
  ¬ Noticed P s → P.numRecvStreams s.participant = s.localRecvReports.items.length →
    senders (s.writtenReports P) = senders s.localRecvReports.items

def SendSteady (P : Participant π) (s : Reporter π) : Prop :=
  ¬ Noticed P s → P.hasSendStream s.participant = s.hasLocalSendReport

def atTime (s : Reporter π) (reportTime : Int) : Reporter π :=
  { s with reportTime := s.nextReportTime reportTime }

def LinksSteady (P : Participant π) (s : Reporter π) : Call π → Prop
  | .beginProcessing _ reportTime | .beginGeneration reportTime =>
    TimeSteady P (s.atTime reportTime) ∧ SendersSteady P (s.atTime reportTime)
  | _ => True

def IndexSteady (P : Participant π) (s : Reporter π) : Call π → Prop
  | .beginProcessing _ reportTime | .beginGeneration reportTime =>
    TimeSteady P (s.atTime reportTime) ∧ SendersSteady P (s.atTime reportTime) ∧
      SendSteady P (s.atTime reportTime)
  | .process report => s.ReportSteady report
  | _ => True

variable {r : RemoteState}

theorem indexView_congr (hsend : (!remote.hasRemoteRecvReport || remote.remoteRecvReport.reportTimestamp == 0) =
      (!r.hasRemoteRecvReport || r.remoteRecvReport.reportTimestamp == 0))
    (hback : p.reportMode = .back → remote.remoteAddress = r.remoteAddress ∧
      (!remote.hasRemoteSendReport || remote.remoteSendReport.reportTimestamp == 0) =
        (!r.hasRemoteSendReport || r.remoteSendReport.reportTimestamp == 0)) (x : Stream)
    (hx : x.toRemoteState = r) : indexView p { x with toRemoteState := remote } = indexView p x := by
  subst hx
  unfold indexView IndexPart.sendDestination IndexPart.recvDestination IndexPart.destination
  cases hm : p.reportMode with
  | toAddress => simp [hsend]
  | back =>
    obtain ⟨haddr, hrecv⟩ := hback hm
    simp only [hsend, haddr, hrecv]

theorem storeDlsr_frame {blk : ReceptionReportBlock} (h : s.storeDlsr blk r = .ok remote) :
    ∃ sr dlsr, remote = { r with lastLocalSr := sr, lastRemoteDlsr := dlsr } := by
  unfold storeDlsr at h
  split at h
  · cases h
    exact ⟨_, _, rfl⟩
  · obtain ⟨_, _, h⟩ := bind_eq_ok.mp h
    obtain ⟨_, _, h⟩ := bind_eq_ok.mp h
    cases h
    exact ⟨_, _, rfl⟩

theorem storeDlrr_frame {blk : XrDlrrSubblock} (h : s.storeDlrr blk r = .ok remote) :
    ∃ rr dlrr, remote = { r with lastLocalRr := rr, lastRemoteDlrr := dlrr } := by
  unfold storeDlrr at h
  split at h
  · cases h
    exact ⟨_, _, rfl⟩
  · obtain ⟨_, _, h⟩ := bind_eq_ok.mp h
    obtain ⟨_, _, h⟩ := bind_eq_ok.mp h
    cases h
    exact ⟨_, _, rfl⟩

theorem updateSendRtt_frame (r : RemoteState) : ∃ rtt report, updateSendRtt r =
    { r with remoteSendRtt := rtt, remoteSendReport := report } ∧
      report.reportTimestamp = r.remoteSendReport.reportTimestamp := by
  unfold updateSendRtt
  split
  · refine ⟨_, _, rfl, ?_⟩
    split <;> rfl
  · exact ⟨_, _, rfl, rfl⟩

theorem updateRecvRtt_frame (r : RemoteState) : ∃ rtt report, updateRecvRtt r =
    { r with remoteRecvRtt := rtt, remoteRecvReport := report } ∧
      report.reportTimestamp = r.remoteRecvReport.reportTimestamp := by
  unfold updateRecvRtt
  split
  · refine ⟨_, _, rfl, ?_⟩
    split <;> rfl
  · exact ⟨_, _, rfl, rfl⟩

theorem applyDelayMetricsBlock_frame (blk : XrDelayMetricsBlock) (r : RemoteState) :
    ∃ report, applyDelayMetricsBlock blk r = { r with remoteRecvReport := report } ∧
      report.reportTimestamp = r.remoteRecvReport.reportTimestamp := by
  refine ⟨_, rfl, ?_⟩
  split <;> rfl

theorem applyQueueMetricsBlock_frame (blk : XrQueueMetricsBlock) (r : RemoteState) :
    ∃ report, applyQueueMetricsBlock blk r = { r with remoteRecvReport := report } ∧
      report.reportTimestamp = r.remoteRecvReport.reportTimestamp := by
  refine ⟨_, rfl, ?_⟩
  split <;> split <;> rfl

theorem beq_zero_congr {a b : Int} (h : a = 0 ↔ b = 0) : (a == 0) = (b == 0) := by
  by_cases hb : b = 0
  · rw [h.mpr hb, hb]
  · have ha : ¬ a = 0 := fun ha => hb (h.mp ha)
    simp [ha, hb]

/-- What a steady report stores shows the same to the index, unless it asks for a new one. -/
theorem applyReport_steady {report : Report} (hsteady : s.ReportSteady report) {stream : Stream}
    {rebuild : Bool} (hf : s.streams.find report.source = some stream)
    (hr : s.applyReport report stream.toRemoteState = .ok (remote, rebuild)) :
    rebuild = true ∨ s.needRebuildIndex = true ∨ ∀ x : Stream, x.toRemoteState = stream.toRemoteState →
      indexView s.indexPart { x with toRemoteState := remote } = indexView s.indexPart x := by
  cases report with
  | cname chunk item | goodbye ssrc => cases hr; exact .inr (.inr fun x hx => by rw [← hx])
  | sr sr =>
    cases hr
    by_cases hb : (!stream.hasRemoteSendReport || stream.remoteAddress != s.reportAddr) = true
    · exact .inl hb
    · obtain ⟨hhas, haddr⟩ : stream.hasRemoteSendReport = true ∧ stream.remoteAddress = s.reportAddr := by
        simpa using hb
      rcases hsteady with hn | hmode | hz
      · exact .inr (.inl hn)
      · refine .inr (.inr (indexView_congr rfl fun hback => ?_))
        have hback : s.participantReportMode = .back := hback
        rw [hmode] at hback
        cases hback
      · refine .inr (.inr (indexView_congr rfl fun _ => ⟨haddr.symm, ?_⟩))
        rw [hhas]
        simpa [applySr] using beq_zero_congr (hz stream hf hhas)
  | receptionBlock ssrc blk =>
    obtain ⟨jitter, _, hr⟩ := bind_eq_ok.mp hr
    obtain ⟨r1, hd, hr⟩ := bind_eq_ok.mp hr
    obtain ⟨_, _, rfl⟩ := storeDlsr_frame hd
    cases hr
    by_cases hb : (!stream.hasRemoteRecvReport || stream.remoteAddress != s.reportAddr) = true
    · exact .inl hb
    · obtain ⟨hhas, haddr⟩ : stream.hasRemoteRecvReport = true ∧ stream.remoteAddress = s.reportAddr := by
        simpa using hb
      refine .inr (.inr (indexView_congr ?_ fun _ => ⟨haddr.symm, rfl⟩))
      rw [hhas]
  | dlrrSubblock xr blk =>
    obtain ⟨r1, hd, hr⟩ := bind_eq_ok.mp hr
    obtain ⟨_, _, rfl⟩ := storeDlrr_frame hd
    cases hr
    obtain ⟨_, report, he, hts⟩ := updateSendRtt_frame
      { stream.toRemoteState with lastLocalRr := _, lastRemoteDlrr := _ }
    rw [he]
    exact .inr (.inr (indexView_congr rfl fun _ => ⟨rfl, by rw [hts]⟩))
  | rrtr xr blk =>
    cases hr
    rcases hsteady with hn | hz
    · exact .inr (.inl hn)
    · unfold applyRrtrBlock
      obtain ⟨_, report, he, hts⟩ := updateRecvRtt_frame { stream.toRemoteState with
        remoteRecvReport := { stream.remoteRecvReport with
          reportTimestamp := Packet.ntp2Unix blk.ntpTimestamp }
        lastRemoteRr := s.reportTime
        lastRemoteRrNtp := blk.ntpTimestamp }
      rw [he]
      refine .inr (.inr (indexView_congr ?_ fun _ => ⟨rfl, rfl⟩))
      cases hhas : stream.hasRemoteRecvReport with
      | false => rfl
      | true =>
        dsimp only
        rw [hts]
        exact congrArg (_ || ·) (beq_zero_congr (hz stream hf hhas))
  | measurementInfo xr blk =>
    cases hr
    exact .inr (.inr (indexView_congr rfl fun _ => ⟨rfl, rfl⟩))
  | delayMetrics xr blk =>
    cases hr
    obtain ⟨report, he, hts⟩ := applyDelayMetricsBlock_frame blk stream.toRemoteState
    rw [he]
    exact .inr (.inr (indexView_congr (by rw [← hts]) fun _ => ⟨rfl, rfl⟩))
  | queueMetrics xr blk =>
    cases hr
    obtain ⟨report, he, hts⟩ := applyQueueMetricsBlock_frame blk stream.toRemoteState
    rw [he]
    exact .inr (.inr (indexView_congr (by rw [← hts]) fun _ => ⟨rfl, rfl⟩))

/-! ## Invariants of a run -/

theorem not_noticed (hneed : s.needRebuildIndex = false)
    (hlen : P.numRecvStreams s.participant ≠ s.localRecvReports.items.length)
    (hcan : ¬ s.CanResize (P.numRecvStreams s.participant)) : ¬ Noticed P s := by
  rintro (hn | ⟨_, hc⟩ | ⟨hl, _⟩)
  · rw [hneed] at hn
    cases hn
  · exact hcan hc
  · exact hlen hl

theorem rebuildIndex_queried (ht : TimeSteady P s) (hn : Noticed P s)
    (hq : Queried P s s1) (hb : s1.rebuildIndex = .ok (.ok, s2)) :
    Planned s2.indexPart s2.streams ∧ s2.indexPart.RecvLinked s2.streams := by
  have htime : ∀ addr address, s1.addresses.find addr = some address → address.lastRebuild ≠ s1.reportTime := by
    obtain ⟨_, _, _, rfl⟩ := hq
    exact ht hn
  obtain ⟨hh, hl, hk⟩ := rebuildIndex_ok htime hb
  exact ⟨⟨hh, hk⟩, hl⟩

theorem rebuildIndex_need (hb : s1.rebuildIndex = .ok (code, s2)) : s2.needRebuildIndex = true := by
  obtain ⟨⟨_, _, _, _, _, _, rfl⟩, _⟩ := rebuildIndex_frame hb
  rfl

theorem refreshStreams_planned (ht : TimeSteady P s) (hs : SendersSteady P s)
    (hsend : SendSteady P s) (hi : s.needRebuildIndex = false → Planned s.indexPart s.streams)
    (hr : s.refreshStreams P = .ok (code, s')) (hneed : s'.needRebuildIndex = false) :
    Planned s'.indexPart s'.streams := by
  rcases refreshStreams_cases hr with ⟨_, hlen, hcan, _, _, rfl⟩ | ⟨_, hnot, hlen, _, rfl⟩ |
    ⟨hn, s1, code2, s2, hq, hb, hcase⟩
  · have hneed : s.needRebuildIndex = false := hneed
    have hp := hi hneed
    unfold indexPart at hp ⊢
    rw [hsend (not_noticed hneed hlen hcan)]
    exact hp
  · have hp := (hi hneed).rewrite (hs hnot hlen)
    unfold indexPart at hp ⊢
    rw [hsend hnot]
    exact hp
  · rcases hcase with ⟨_, _, rfl⟩ | ⟨rfl, _, rfl⟩
    · rw [rebuildIndex_need hb] at hneed
      cases hneed
    · exact (rebuildIndex_queried ht hn hq hb).1

theorem refreshStreams_linked (ht : TimeSteady P s) (hs : SendersSteady P s)
    (hi : s.needRebuildIndex = false → s.indexPart.RecvLinked s.streams)
    (hr : s.refreshStreams P = .ok (code, s')) (hneed : s'.needRebuildIndex = false) :
    s'.indexPart.RecvLinked s'.streams := by
  rcases refreshStreams_cases hr with ⟨_, _, _, _, _, rfl⟩ | ⟨_, hnot, hlen, _, rfl⟩ |
    ⟨hn, s1, code2, s2, hq, hb, hcase⟩
  · exact recvLinked_rewrite (hi hneed) rfl _
  · exact recvLinked_rewrite (hi hneed) (hs hnot hlen) _
  · rcases hcase with ⟨_, _, rfl⟩ | ⟨rfl, _, rfl⟩
    · rw [rebuildIndex_need hb] at hneed
      cases hneed
    · exact (rebuildIndex_queried ht hn hq hb).2

theorem beginReport_keeps {R : Reporter π → Prop} (hstate : ∀ s : Reporter π, R s → R { s with reportState := .idle })
    (hrefresh : ∀ s1, (s.enter state reportTime).refreshStreams P = .ok (code, s1) → R s1)
    (h : s.beginReport P state reportTime = .ok (code, s')) : R s' := by
  obtain ⟨_, _, s1, hr, hcase⟩ := beginReport_cases h
  rcases hcase with ⟨_, rfl⟩ | ⟨_, rfl⟩
  · exact hrefresh _ hr
  · exact hstate _ (hrefresh _ hr)

/-- The index and the marks are right, over a run of steady calls. -/
structure IndexInv (s : Reporter π) : Prop where
  marked : s.LoopsMarked
  planned : s.needRebuildIndex = false → Planned s.indexPart s.streams

theorem IndexInv.initial (h : Initial P s) : s.IndexInv := by
  refine ⟨.initial h, fun hneed => ?_⟩
  rw [(initial_cases h).2.1] at hneed
  cases hneed

theorem IndexInv.call (h : s.IndexInv) (hsteady : IndexSteady P s c) (hc : CallStep P s c s') : s'.IndexInv := by
  refine ⟨h.marked.call hc, ?_⟩
  cases hbegin : c.isBegin with
  | false =>
    refine (effect_call indexView_blind (.inl h.marked) hbegin ?_ hc).keeps (fun _ _ _ => Planned.extends) h.planned
    rintro report stream remote rebuild rfl hf hr
    exact applyReport_steady hsteady hf hr
  | true =>
    obtain ⟨code, hc⟩ := hc
    cases c with
    | beginProcessing reportAddr reportTime =>
      obtain ⟨ht, hs, hsend⟩ := hsteady
      refine beginReport_keeps (R := fun s => s.needRebuildIndex = false → Planned s.indexPart s.streams)
        (fun _ hs => hs) (fun s1 hr => ?_) hc
      exact refreshStreams_planned (s := (s.setReportAddr reportAddr).enter .processing reportTime)
        ht hs hsend h.planned hr
    | beginGeneration reportTime =>
      obtain ⟨ht, hs, hsend⟩ := hsteady
      refine beginReport_keeps (R := fun s => s.needRebuildIndex = false → Planned s.indexPart s.streams)
        (fun _ hs => hs) (fun s1 hr => ?_) hc
      exact refreshStreams_planned (s := s.enter .generating reportTime) ht hs hsend h.planned hr
    | _ => cases hbegin

/-- Between `begin_generation` and `end_generation` no new index is asked for. -/
structure LinksInv (s : Reporter π) : Prop where
  linked : s.needRebuildIndex = false → s.indexPart.RecvLinked s.streams
  generating : s.reportState = .generating → s.needRebuildIndex = false

theorem LinksInv.initial (h : Initial P s) : s.LinksInv := by
  obtain ⟨_, hneed, hidle⟩ := initial_cases h
  refine ⟨fun hn => ?_, fun hg => ?_⟩
  · rw [hneed] at hn
    cases hn
  · rw [hidle] at hg
    cases hg

theorem refreshStreams_need (hr : s.refreshStreams P = .ok (.ok, s')) : s'.needRebuildIndex = false := by
  rcases refreshStreams_cases hr with ⟨hc, _⟩ | ⟨_, hnot, _, _, rfl⟩ | ⟨_, _, _, _, _, _, hcase⟩
  · cases hc
  · show s.needRebuildIndex = false
    cases hn : s.needRebuildIndex with
    | false => rfl
    | true => exact absurd (.inl hn) hnot
  · rcases hcase with ⟨hc, he, _⟩ | ⟨_, _, rfl⟩
    · exact absurd he.symm hc
    · rfl

theorem beginReport_need (h : s.beginReport P state reportTime = .ok (.ok, s')) : s'.needRebuildIndex = false := by
  obtain ⟨_, _, s1, hr, hcase⟩ := beginReport_cases h
  rcases hcase with ⟨_, rfl⟩ | ⟨hc, _⟩
  · exact refreshStreams_need hr
  · exact absurd rfl hc

theorem beginReport_generating (h : s.beginReport P state reportTime = .ok (code, s'))
    (hg : s'.reportState = .generating) : s'.needRebuildIndex = false := by
  obtain ⟨_, _, s1, _, hcase⟩ := beginReport_cases h
  rcases hcase with ⟨rfl, _⟩ | ⟨_, rfl⟩
  · exact beginReport_need h
  · cases hg

theorem detectTimeouts_state (hs : s.reportState = state)
    (ht : s.detectTimeouts P = .ok s') : s'.reportState = state := by
  refine detectTimeouts_keeps (I := fun x => x.reportState = state) ?_ (fun _ _ h => h) hs ht
  intro x ssrc hx
  obtain ⟨_, _, _, _, _, _, _, _, he⟩ := sameCall_updateStream (s := x) ssrc
  rw [he]
  exact hx

theorem endGeneration_state (h : s.endGeneration P = .ok (code, s')) : s'.reportState = .idle := by
  obtain ⟨_, s1, hr, ht⟩ := endGeneration_cases h
  refine detectTimeouts_state ?_ ht
  rcases resolveCollision_cases hr with ⟨_, rfl⟩ | ⟨_, _, _, _, _, rfl⟩ <;> rfl

theorem LinksInv.generating_call (h : s.LinksInv) (hc : CallStep P s c s')
    (hg : s'.reportState = .generating) : s'.needRebuildIndex = false := by
  obtain ⟨code, hc⟩ := hc
  cases c with
  | environment participant => cases hc; exact h.generating hg
  | beginProcessing reportAddr reportTime | beginGeneration reportTime => exact beginReport_generating hc hg
  | process report =>
    obtain ⟨s1, hp, hc⟩ := bind_eq_ok.mp hc
    cases hc
    have hstate := process_state hp
    obtain ⟨_, _, _, _, _, _, _, _, rfl⟩ := sameCall_process hp
    have hg : s.reportState = .generating := hg
    rw [hstate] at hg
    cases hg
  | endProcessing =>
    obtain ⟨_, s1, _, _, _, rfl⟩ := endProcessing_cases hc
    cases hg
  | generate element =>
    obtain ⟨s1, hgen, hc⟩ := bind_eq_ok.mp hc
    cases hc
    rcases generate_cases hgen with ⟨_, _, _, rfl⟩ | ⟨_, _, rfl⟩ <;> exact h.generating hg
  | endGeneration =>
    rw [endGeneration_state hc] at hg
    cases hg

theorem LinksInv.call (h : s.LinksInv) (hsteady : LinksSteady P s c) (hc : CallStep P s c s') : s'.LinksInv := by
  refine ⟨?_, h.generating_call hc⟩
  cases hbegin : c.isBegin with
  | false =>
    exact (effect_call linkView_blind (.inr fun _ _ => rfl) hbegin
      (fun _ _ _ _ _ _ _ => .inr (.inr fun _ _ => rfl)) hc).keeps
      (fun _ _ _ => recvLinked_extends) h.linked
  | true =>
    obtain ⟨code, hc⟩ := hc
    cases c with
    | beginProcessing reportAddr reportTime =>
      obtain ⟨ht, hs⟩ := hsteady
      refine beginReport_keeps (R := fun s => s.needRebuildIndex = false → s.indexPart.RecvLinked s.streams)
        (fun _ hs => hs) (fun s1 hr => ?_) hc
      exact refreshStreams_linked (s := (s.setReportAddr reportAddr).enter .processing reportTime) ht hs h.linked hr
    | beginGeneration reportTime =>
      obtain ⟨ht, hs⟩ := hsteady
      refine beginReport_keeps (R := fun s => s.needRebuildIndex = false → s.indexPart.RecvLinked s.streams)
        (fun _ hs => hs) (fun s1 hr => ?_) hc
      exact refreshStreams_linked (s := s.enter .generating reportTime) ht hs h.linked hr
    | _ => cases hbegin

/-! ## Reception blocks carry the data of their own stream -/

/-- What the block generators find for the `j`-th receiving stream of the `i`-th destination: the
stream still exists, its pointer leads to a report of the current array, and that report is about
the stream. -/
def OwnReport (s : Reporter π) (i j : Nat) : Prop :=
  ∀ address ptr, s.addressAt i = .ok address → address.recvStreamIndex[j]? = some ptr →
    ∃ stream report, s.streamAt address.recvStreamIndex j = .ok (ptr.sourceId, stream) ∧
      s.localReport stream = .ok report ∧ report.senderSourceId = ptr.sourceId

theorem LinksInv.ownReport (h : s.LinksInv) (hg : s.reportState = .generating) (i j : Nat) : s.OwnReport i j := by
  intro address ptr ha hptr
  have hfind : ∃ addr, s.addresses.find addr = some address := by
    unfold addressAt at ha
    split at ha
    · cases ha
    · split at ha
      · cases ha
      · next addr _ _ _ hf =>
        cases ha
        exact ⟨addr, hf⟩
  obtain ⟨addr, hf⟩ := hfind
  obtain ⟨stream, k, report, hst, hid, hlink, hk, hs⟩ :=
    h.linked (h.generating hg) addr address hf ptr (List.mem_of_getElem? hptr)
  refine ⟨stream, report, ?_, ?_, hs⟩
  · unfold streamAt
    simp only [hptr, hst, hid, if_true]
  · unfold localReport
    have hk : s.localRecvReports.items[k]? = some report := hk
    have hlink : stream.localRecvReport = some ⟨s.localRecvReports.block, k⟩ := hlink
    simp only [hlink, ne_eq, not_true_eq_false, if_false, hk]

/-- The SSRC that a block about the `j`-th receiving stream of the `i`-th destination is sent for, and
the sender that the report it is filled from is about. -/
def blockSenders (s : Reporter π) (i j : Nat) : Except Fault (UInt32 × UInt32) := do
  let address ← s.addressAt i
  let (ssrc, stream) ← s.streamAt address.recvStreamIndex j
  return (ssrc, (← s.localReport stream).senderSourceId)

theorem OwnReport.blockSenders {i j : Nat} (h : s.OwnReport i j) {ssrc sender : UInt32}
    (hb : s.blockSenders i j = .ok (ssrc, sender)) : sender = ssrc := by
  obtain ⟨address, ha, hb⟩ := bind_eq_ok.mp hb
  obtain ⟨⟨_, stream⟩, hst, hb⟩ := bind_eq_ok.mp hb
  obtain ⟨report, hr, hb⟩ := bind_eq_ok.mp hb
  cases hb
  cases hptr : address.recvStreamIndex[j]? with
  | none =>
    unfold streamAt at hst
    rw [hptr] at hst
    cases hst
  | some ptr =>
    obtain ⟨stream', report', hst', hr', hs⟩ := h address ptr ha hptr
    rw [hst] at hst'
    cases hst'
    rw [hr] at hr'
    cases hr'
    exact hs

def receiverOf (senders : List UInt32) : Peer :=
  { info := { cname := some ⟨[114], by decide⟩, sourceId := 1
              reportAddress := .ipv4 0x7F000001 5000 }
    sends := false
    receives := senders }

/-- In every run of calls that keep the pointers right, whenever blocks are generated, every stream
taken from a receiving index has a report of its own to read. -/
theorem ownReport_of_reaches (h : Reaches (Initial P) (CallStep P) (LinksSteady P) s)
    (hg : s.reportState = .generating) (i j : Nat) : s.OwnReport i j := by
  have hinv : s.LinksInv := h.invariant (fun _ => LinksInv.initial)
    fun _ _ _ hinv hsteady hc => hinv.call hsteady hc
  exact hinv.ownReport hg i j

/-- The first generation of a receiver. -/
theorem ownReport_of_reaches_first : ∃ s : Reporter Peer,
    s.blockSenders 0 0 = .ok (10, 10) ∧ s.OwnReport 0 0 := by
  have hrun : ((Reporter.new Peer.participant {} (receiverOf [10, 20]) []).any fun s =>
      s.needRebuildIndex ∧ s.addresses = .empty ∧
        ((s.call Peer.participant (.beginGeneration 1)).toOption.any fun r =>
          r.2.reportState = .generating ∧ r.2.blockSenders 0 0 = .ok (10, 10)) = true) = true := by
    decide +kernel
  obtain ⟨s₀, hn, hs⟩ := (Option.any_eq_true _ _).mp hrun
  obtain ⟨hneed, haddr, hc⟩ := of_decide_eq_true hs
  obtain ⟨⟨code, s₁⟩, hc, hs₁⟩ := (Option.any_eq_true _ _).mp hc
  obtain ⟨hg, hb⟩ := of_decide_eq_true hs₁
  have hsteady : LinksSteady Peer.participant s₀ (.beginGeneration 1) := by
    refine ⟨fun _ addr address hf => ?_, fun hnot => absurd (.inl hneed) hnot⟩
    have hf : s₀.addresses.find addr = some address := hf
    rw [haddr] at hf
    cases hf
  have hstep : CallStep Peer.participant s₀ (.beginGeneration 1) s₁ := ⟨code, toOption_eq_some hc⟩
  exact ⟨s₁, hb, ownReport_of_reaches (.step (.start ⟨_, _, _, hn⟩) hsteady hstep) hg 0 0⟩

/-- The participant lists its two senders in another order: their blocks change places. -/
theorem swappedSenders_crossed : ∃ s, Reaches (Initial Peer.participant) (CallStep Peer.participant)
    (fun _ _ => True) s ∧ s.reportState = .generating ∧ ¬ s.OwnReport 0 0 := by
  have hrun : ((runCalls Peer.participant {} (receiverOf [10, 20])
      [.beginGeneration 1, .endGeneration, .environment (receiverOf [20, 10]),
        .beginGeneration 2]).any fun s =>
      s.reportState = .generating ∧ s.blockSenders 0 0 = .ok (10, 20)) = true := by
    decide +kernel
  obtain ⟨s, hr, hs⟩ := (Option.any_eq_true _ _).mp hrun
  obtain ⟨hg, hb⟩ := of_decide_eq_true hs
  refine ⟨s, reaches_runCalls hr, hg, fun h => ?_⟩
  exact absurd (h.blockSenders hb) (by decide)

end Roc.Rtcp.Reporter
