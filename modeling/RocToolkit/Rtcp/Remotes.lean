import RocToolkit.Rtcp.Index

/-!
# RocToolkit.Rtcp.Remotes

Facts that hold of every stream of a reporter, as far as they are about what the remote participant has
reported. Only `process_*` calls store reports; the other calls create streams that know nothing, and
remove streams. So such a fact is kept by a call if it holds of an empty stream and if storing the report of
the call keeps it.
-/

namespace Roc.Rtcp.Reporter

open LruTable

variable {π : Type} {P : Participant π} {s s' : Reporter π} {ssrc : UInt32}
  {Q Q' : UInt32 → RemoteState → Prop}

/-- `Q` holds of every stream. -/
def Remotes (Q : UInt32 → RemoteState → Prop) (s : Reporter π) : Prop :=
  ∀ k stream, s.streams.find k = some stream → Q k stream.toRemoteState

/-- `Q` holds of a new stream, and does not depend on the local SSRC that reports are stored with. -/
structure Settled (Q : UInt32 → RemoteState → Prop) : Prop where
  fresh : ∀ k, Q k {}
  senderSourceId : ∀ k r ssrc, Q k r →
    Q k { r with remoteRecvReport := { r.remoteRecvReport with senderSourceId := ssrc } }

section
variable (h : s.Remotes Q)
include h

theorem Remotes.mono (hQ : ∀ k r, Q k r → Q' k r) : s.Remotes Q' := fun k stream hf => hQ k _ (h k stream hf)

theorem Remotes.modify {f : Stream → Stream}
    (hf : ∀ stream, s.streams.find ssrc = some stream → Q ssrc (f stream).toRemoteState) :
    (s.modifyStream ssrc f).Remotes Q := by
  intro k stream hk
  have hk : (s.streams.modify ssrc f).find k = some stream := hk
  rw [find_modify] at hk
  split at hk
  · rename_i hks
    obtain ⟨before, hb, rfl⟩ := Option.map_eq_some_iff.mp hk
    rw [hks]
    exact hf before hb
  · exact h k stream hk

theorem Remotes.updateStream (ssrc : UInt32) : (s.updateStream ssrc).Remotes Q := by
  rcases updateStream_cases s ssrc with he | he <;> rw [he]
  · exact h
  · have hm : (s.modifyStream ssrc fun stream => { stream with lastUpdate := s.reportTime }).Remotes Q :=
      h.modify fun stream hf => h ssrc stream hf
    intro k stream hk
    have hk : ((s.streams.modify ssrc _).touch ssrc).find k = some stream := hk
    rw [find_touch] at hk
    exact hm k stream hk

theorem Remotes.findStream (hQ : Settled Q) (ssrc : UInt32) (mode : CreateMode) :
    (s.findStream ssrc mode).2.Remotes Q := by
  rcases findStream_cases s ssrc mode with ⟨_, _, he⟩ | ⟨_, _, he⟩ | ⟨_, _, he⟩ | ⟨hnone, _, he⟩ <;> rw [he]
  · exact h
  · exact h
  · exact h
  · intro k stream hk
    have hk : (s.streams.insert ssrc s.freshStream).find k = some stream := hk
    rw [find_insert hnone] at hk
    split at hk
    · cases hk
      exact hQ.fresh k
    · exact h k stream hk

theorem Remotes.detectCollision (ssrc : UInt32) : (s.detectCollision ssrc).Remotes Q := by
  intro k stream hk
  obtain ⟨before, hb, he⟩ := find_detectCollision hk
  rw [he]
  exact h k before hb

theorem Remotes.removeStream (ssrc : UInt32) : (s.removeStream ssrc).Remotes Q := by
  intro k stream hk
  have hk : (s.streams.remove ssrc).find k = some stream := hk
  rw [find_remove] at hk
  split at hk
  · cases hk
  · exact h k stream hk

theorem Remotes.storeCname {text : CString} (hs : s.storeCname ssrc text = .ok s') : s'.Remotes Q := by
  obtain ⟨cname, _, rfl⟩ := storeCname_ok hs
  have hm : (s.modifyStream ssrc fun stream => { stream with cname }).Remotes Q :=
    h.modify fun stream hf => h ssrc stream hf
  have hm : Remotes Q { s.modifyStream ssrc fun stream => { stream with cname } with
    needRebuildIndex := true } := hm
  exact (hm.detectCollision ssrc).updateStream ssrc

theorem Remotes.detectTimeouts (ht : s.detectTimeouts P = .ok s') : s'.Remotes Q :=
  detectTimeouts_keeps (fun _ ssrc hs => hs.updateStream ssrc)
    (fun s ssrc hs => Remotes.removeStream (s := s.haltRecvStream P ssrc) hs ssrc) h ht

end

/-! ## Reports -/

variable {stream : Stream} {mode : CreateMode} {s1 : Reporter π} {code : StatusCode}
  {state : ReportState} {reportTime : Int}

theorem find_updateStream {k : UInt32} (h : (s.updateStream ssrc).streams.find k = some stream) :
    ∃ before, s.streams.find k = some before ∧ stream.toRemoteState = before.toRemoteState := by
  have hr : s.Remotes fun k r => ∃ before, s.streams.find k = some before ∧ r = before.toRemoteState :=
    fun k before hf => ⟨before, hf, rfl⟩
  exact hr.updateStream ssrc k stream h

theorem findStream_some (h : s.findStream ssrc mode = (some stream, s1)) : s1.streams.find ssrc = some stream := by
  rcases findStream_cases s ssrc mode with ⟨_, hf, he⟩ | ⟨_, _, he⟩ | ⟨_, _, he⟩ | ⟨hnone, _, he⟩ <;>
    rw [h] at he <;> cases he
  · exact hf
  · show (s.streams.insert ssrc s.freshStream).find ssrc = _
    rw [find_insert hnone, if_pos rfl]

theorem findStream_none (h : s.findStream ssrc mode = (none, s1)) : s1.streams.find ssrc = none := by
  rcases findStream_cases s ssrc mode with ⟨_, _, he⟩ | ⟨hnone, _, he⟩ | ⟨hnone, _, he⟩ | ⟨_, _, he⟩ <;>
    rw [h] at he <;> cases he
  · exact hnone
  · exact hnone

/-- What a report may do to the streams: it is stored in the stream of its source, if it is about a stream of
ours and was announced, and it leaves the other streams alone. -/
theorem Remotes.streams (h : s.Remotes Q) (hQ : Settled Q) {report : Report}
    (hcarry : report.carriesState = true) (hp : s.process P report = .ok s') {k : UInt32}
    (hk : s'.streams.find k = some stream) :
    ∃ r, Q k r ∧ ((stream.toRemoteState = r ∧
          (k = report.source → s.accepts report = true → report.ready r = false)) ∨
        (k = report.source ∧ s.accepts report = true ∧ report.ready r = true ∧
          ∃ rebuild, s.applyReport report r = .ok (stream.toRemoteState, rebuild))) := by
  rw [process_eq P s hcarry] at hp
  have hdetected := h.detectCollision report.source
  -- the streams after the search
  have hfound := hdetected.findStream hQ report.source report.createMode
  rcases (processReport_cases hp).2 with ⟨hacc, rfl⟩ | ⟨_, he⟩ | ⟨_, found, he, hready⟩ |
    ⟨hacc, found, s1, remote, rebuild, he, hready, happly, rfl⟩
  · exact ⟨_, hdetected k stream hk, .inl ⟨rfl, fun _ ha => by rw [hacc] at ha; cases ha⟩⟩
  · rw [he] at hfound
    refine ⟨_, hfound k stream hk, .inl ⟨rfl, fun hks => ?_⟩⟩
    rw [hks, findStream_none he] at hk
    cases hk
  · rw [he] at hfound
    refine ⟨_, hfound k stream hk, .inl ⟨rfl, fun hks _ => ?_⟩⟩
    rw [hks, findStream_some he] at hk
    cases hk
    exact hready
  · rw [he] at hfound
    obtain ⟨stored, hst, heq⟩ := find_updateStream hk
    have hst : (s1.streams.modify report.source fun stream => { stream with toRemoteState := remote }).find k =
      some stored := hst
    rw [find_modify] at hst
    split at hst
    · rename_i hks
      obtain ⟨before, hb, rfl⟩ := Option.map_eq_some_iff.mp hst
      refine ⟨_, hfound k found (hks ▸ findStream_some he), .inr ⟨hks, hacc, hready, rebuild, ?_⟩⟩
      rw [heq]
      exact happly
    · rename_i hks
      rw [heq]
      exact ⟨_, hfound k stored hst, .inl ⟨rfl, fun hk' => absurd hk' hks⟩⟩

section
variable (h : s.Remotes Q) (hQ : Settled Q)
include h hQ

theorem Remotes.processCname {chunk : SdesChunk} {item : SdesItem}
    (hp : s.processCname P chunk item = .ok s') : s'.Remotes Q :=
  processCname_keeps (I := Remotes Q) (fun _ mode hx => hx.findStream hQ chunk.ssrc mode)
    (fun x hx => Remotes.removeStream (s := x.haltRecvStream P chunk.ssrc) hx chunk.ssrc)
    (fun _ _ hx hst => hx.storeCname hst) h hp

theorem Remotes.process {report : Report}
    (happly : ∀ r remote rebuild, Q report.source r → s.accepts report = true → report.ready r = true →
      s.applyReport report r = .ok (remote, rebuild) → Q report.source remote)
    (hp : s.process P report = .ok s') : s'.Remotes Q := by
  cases hcarry : report.carriesState with
  | true =>
    intro k stream hk
    obtain ⟨r, hr, hcase⟩ := h.streams hQ hcarry hp hk
    rcases hcase with ⟨heq, _⟩ | ⟨rfl, hacc, hready, rebuild, he⟩
    · rw [heq]
      exact hr
    · exact happly _ _ _ hr hacc hready he
  | false =>
    cases report with
    | cname chunk item => exact h.processCname hQ hp
    | goodbye ssrc =>
      rcases (processGoodbye_cases hp).2 with rfl | rfl
      · exact h
      · exact h.removeStream ssrc
    | _ => cases hcarry

/-! ## The other calls -/

variable {code : StatusCode}

theorem Remotes.refreshStreams (hr : s.refreshStreams P = .ok (code, s')) : s'.Remotes Q := by
  rcases refreshStreams_cases hr with ⟨_, _, _, _, _, rfl⟩ | ⟨_, _, _, _, rfl⟩ |
    ⟨_, s1, code2, s2, ⟨_, _, _, rfl⟩, hb, hcase⟩
  · exact h
  · exact h
  · have h2 : s2.Remotes Q := by
      obtain ⟨⟨_, _, _, _, _, _, rfl⟩, hg⟩ := rebuildIndex_frame hb
      intro k stream hk
      rcases hg.find_back hk with ⟨before, hf, _, rfl⟩ | ⟨_, _, _, rfl⟩
      · exact h k before hf
      · exact hQ.fresh k
    rcases hcase with ⟨_, _, rfl⟩ | ⟨_, _, rfl⟩
    · exact h2
    · exact h2

theorem Remotes.beginReport {state : ReportState} {reportTime : Int}
    (hb : s.beginReport P state reportTime = .ok (code, s')) : s'.Remotes Q := by
  obtain ⟨_, _, s1, hr, hcase⟩ := beginReport_cases hb
  have h1 : s1.Remotes Q := Remotes.refreshStreams (by exact h) hQ hr
  rcases hcase with ⟨_, rfl⟩ | ⟨_, rfl⟩
  · exact h1
  · exact h1

end

theorem Remotes.endProcessing (h : s.Remotes Q) (he : s.endProcessing P = .ok (code, s')) : s'.Remotes Q := by
  obtain ⟨_, s1, _, _, ht, rfl⟩ := endProcessing_cases he
  have h1 : s1.Remotes Q := h.detectTimeouts ht
  exact h1

theorem Remotes.endGeneration (h : s.Remotes Q) (hQ : Settled Q)
    (he : s.endGeneration P = .ok (code, s')) : s'.Remotes Q := by
  obtain ⟨_, s1, hr, ht⟩ := endGeneration_cases he
  have h1 : s1.Remotes Q := by
    rcases resolveCollision_cases hr with ⟨_, rfl⟩ | ⟨_, _, _, ssrc, _, rfl⟩
    · exact h
    · intro k stream hk
      have hk : (s.streams.mapValues _).find k = some stream := hk
      rw [find_mapValues] at hk
      obtain ⟨before, hb, rfl⟩ := Option.map_eq_some_iff.mp hk
      dsimp only
      split
      · exact hQ.senderSourceId k _ ssrc (h k before hb)
      · exact h k before hb
  exact h1.detectTimeouts ht

/-! ## Times -/

def sentTimes (s : Reporter π) : Int × Int := (s.currentSr, s.currentRr)

theorem sentTimes_updateStream (ssrc : UInt32) : (s.updateStream ssrc).sentTimes = s.sentTimes := by
  rcases updateStream_cases s ssrc with h | h <;> rw [h]
  rfl

theorem sentTimes_detectTimeouts (h : s.detectTimeouts P = .ok s') : s'.sentTimes = s.sentTimes := by
  refine detectTimeouts_keeps (I := fun x : Reporter π => x.sentTimes = s.sentTimes) ?_ ?_ rfl h
  · intro x ssrc hx
    rw [sentTimes_updateStream, hx]
  · intro x ssrc hx
    exact hx

theorem beginReport_ok (h : s.beginReport P state reportTime = .ok (.ok, s')) :
    0 < reportTime ∧ s'.reportTime = s.nextReportTime reportTime ∧ s'.sentTimes = s.sentTimes ∧
      s'.localSourceId = s.localSourceId ∧ s'.hasLocalSendReport = P.hasSendStream s.participant := by
  obtain ⟨_, hpos, s1, hr, hcase⟩ := beginReport_cases h
  refine ⟨hpos, ?_⟩
  obtain rfl : s' = s1 := by
    rcases hcase with ⟨_, rfl⟩ | ⟨hne, _⟩
    · rfl
    · exact absurd rfl hne
  rcases refreshStreams_cases hr with ⟨hc, _⟩ | ⟨_, _, _, _, rfl⟩ | ⟨_, s1, code2, s2, ⟨_, _, _, rfl⟩, hb, hcase⟩
  · cases hc
  · exact ⟨rfl, rfl, rfl, rfl⟩
  · obtain ⟨⟨_, _, _, _, _, _, rfl⟩, _⟩ := rebuildIndex_frame hb
    rcases hcase with ⟨hne, hc, _⟩ | ⟨_, _, rfl⟩
    · exact absurd hc.symm hne
    · exact ⟨rfl, rfl, rfl, rfl⟩

theorem sentTimes_beginReport (h : s.beginReport P state reportTime = .ok (code, s')) : s'.sentTimes = s.sentTimes := by
  obtain ⟨_, _, s1, hr, hcase⟩ := beginReport_cases h
  have h1 : s1.sentTimes = s.sentTimes := by
    rcases refreshStreams_cases hr with ⟨_, _, _, _, _, rfl⟩ | ⟨_, _, _, _, rfl⟩ |
      ⟨_, s1, code2, s2, ⟨_, _, _, rfl⟩, hb, hcase⟩
    · rfl
    · rfl
    · obtain ⟨⟨_, _, _, _, _, _, rfl⟩, _⟩ := rebuildIndex_frame hb
      rcases hcase with ⟨_, _, rfl⟩ | ⟨_, _, rfl⟩ <;> rfl
  rcases hcase with ⟨_, rfl⟩ | ⟨_, rfl⟩ <;> exact h1

theorem sentTimes_endProcessing (h : s.endProcessing P = .ok (code, s')) : s'.sentTimes = s.sentTimes := by
  obtain ⟨_, s1, _, _, ht, rfl⟩ := endProcessing_cases h
  have h1 : s1.sentTimes = s.sentTimes := sentTimes_detectTimeouts ht
  exact h1

theorem sentTimes_endGeneration (h : s.endGeneration P = .ok (code, s')) : s'.sentTimes = s.sentTimes := by
  obtain ⟨_, s1, hr, ht⟩ := endGeneration_cases h
  rw [sentTimes_detectTimeouts ht]
  rcases resolveCollision_cases hr with ⟨_, rfl⟩ | ⟨_, _, _, _, _, rfl⟩ <;> rfl

theorem nextReportTime_near (s : Reporter π) (reportTime : Int) :
    s.nextReportTime reportTime = reportTime ∨ s.nextReportTime reportTime = reportTime + 1 := by
  unfold nextReportTime
  split
  · exact .inl rfl
  · exact .inr rfl

end Roc.Rtcp.Reporter
