import RocToolkit.Rtcp.Freshness

/-!
# RocToolkit.Rtcp.FromScratch

The index that a run of steady calls keeps is the one that `rebuild_index_` builds when it starts with
no addresses and has memory enough. The order of the destinations is not compared: an address that is
still in use keeps its place in the table over a rebuild.
-/

namespace Roc.Rtcp.Reporter

open List

open Entry (sends recvs)

open IndexPart LruTable

variable {π : Type} {P : Participant π} {s s' : Reporter π}

/-! ## A rebuild that never runs out of memory -/

section
variable (h : s.arena = [])
include h

theorem alloc_unlimited : s.alloc = (true, s) := by
  unfold alloc
  rw [h]

theorem useAddress_unlimited (addr : SocketAddr) : ∃ s', s.useAddress addr = (true, s') ∧ s'.arena = [] := by
  have hfind : ∃ s1, s.findAddress addr = (true, s1) ∧ s1.arena = [] := by
    unfold findAddress
    rw [alloc_unlimited h]
    split
    · exact ⟨s, rfl, h⟩
    · exact ⟨_, rfl, h⟩
  obtain ⟨s1, hf, h1⟩ := hfind
  refine ⟨s1.rebuildAddress addr, by unfold useAddress; rw [hf], ?_⟩
  unfold rebuildAddress
  split
  · exact h1
  · split
    · exact h1
    · exact h1

theorem pushStream_unlimited (addr : SocketAddr) (push : Address → Address) :
    ∃ s', s.pushStream addr push = (true, s') ∧ s'.arena = [] := by
  unfold pushStream
  rw [alloc_unlimited h]
  exact ⟨_, rfl, h⟩

theorem findStream_unlimited (ssrc : UInt32) :
    ∃ stream s', s.findStream ssrc .autoCreate = (some stream, s') ∧ s'.arena = [] := by
  unfold findStream
  rw [alloc_unlimited h]
  split
  · exact ⟨_, s, rfl, h⟩
  · exact ⟨_, _, rfl, h⟩

theorem indexSendStream_unlimited (entry : UInt32 × Stream) :
    ∃ s', s.indexSendStream entry = (true, s') ∧ s'.arena = [] := by
  unfold indexSendStream
  dsimp only
  split
  · exact ⟨s, rfl, h⟩
  · split
    · exact ⟨s, rfl, h⟩
    · obtain ⟨s1, hu, h1⟩ := useAddress_unlimited h (s.destination entry.2)
      rw [hu]
      exact pushStream_unlimited h1 _ _

theorem indexSendStreams_unlimited : ∃ s', s.indexSendStreams = (true, s') ∧ s'.arena = [] := by
  have hloop : ∀ entries {x : Reporter π}, x.arena = [] →
      ∃ x', Loop.forEach indexSendStream entries x = (true, x') ∧ x'.arena = [] := fun entries _ =>
    Loop.forEach_total (fun entry _ hy => indexSendStream_unlimited hy entry) entries
  unfold indexSendStreams
  split
  · exact ⟨s, rfl, h⟩
  · split
    · exact hloop _ h
    · obtain ⟨s1, hu, h1⟩ := useAddress_unlimited h s.participantReportAddr
      rw [hu]
      exact hloop _ h1

theorem indexRecvStream_unlimited (entry : RecvReport × Nat) :
    ∃ s', s.indexRecvStream entry = (true, s') ∧ s'.arena = [] := by
  obtain ⟨stream, s1, hf, h1⟩ := findStream_unlimited h entry.1.senderSourceId
  unfold indexRecvStream
  simp only [hf]
  split
  · exact ⟨s1, rfl, h1⟩
  · split
    · exact ⟨s1, rfl, h1⟩
    · obtain ⟨s2, hu, h2⟩ := useAddress_unlimited h1 (s1.destination stream)
      simp only [hu]
      obtain ⟨s3, hp, h3⟩ := pushStream_unlimited h2 (s2.destination stream)
        (Address.listRecv ⟨entry.1.senderSourceId, stream.id⟩)
      simp only [hp]
      exact ⟨_, rfl, h3⟩

theorem rebuildIndex_unlimited (hneed : s.needRebuildIndex = true) : ∃ s', s.rebuildIndex = .ok (.ok, s') := by
  obtain ⟨s1, hsend, h1⟩ := indexSendStreams_unlimited (s := s.clearIndex) h
  obtain ⟨s2, hrecv, h2⟩ := Loop.forEach_total (I := fun x : Reporter π => x.arena = [])
    (fun entry _ hy => indexRecvStream_unlimited hy entry) s1.localRecvReports.items.zipIdx h1
  have ha : s2.removeUnusedAddresses.alloc = (true, s2.removeUnusedAddresses) := alloc_unlimited h2
  refine ⟨s2.removeUnusedAddresses.fillIndex, ?_⟩
  unfold rebuildIndex
  simp only [hneed, hsend, hrecv, ha, Bool.not_true, Bool.false_eq_true, if_false]

end

/-! ## The index of a fresh start -/

/-- The state in which `rebuild_index_` starts with nothing but what the index is made from. -/
def scratch (s : Reporter π) : Reporter π :=
  { s with addresses := .empty, addressIndex := [], needRebuildIndex := true, arena := [] }

def listed (s : Reporter π) (addr : SocketAddr) : Option (List StreamPtr × List StreamPtr) :=
  (s.addresses.find addr).map fun address => (address.sendStreamIndex, address.recvStreamIndex)

def FromScratch (s : Reporter π) : Prop :=
  ∃ r, s.scratch.rebuildIndex = .ok (.ok, r) ∧ s.addressIndex.Perm r.addressIndex ∧
    ∀ addr, s.listed addr = r.listed addr

variable {l : List Entry}

theorem mem_addressIndex (h : s.indexPart.Holds l) {addr : SocketAddr} :
    addr ∈ s.addressIndex ↔ addr ∈ l.map Entry.addr := by
  have hkeys : s.addressIndex = s.addresses.entries.map Prod.fst := h.keys
  have hlists := h.lists addr
  rw [hkeys]
  by_cases hm : addr ∈ l.map Entry.addr
  · rw [if_pos hm] at hlists
    obtain ⟨address, hf, _⟩ := Option.map_eq_some_iff.mp hlists
    exact iff_of_true (mem_map.mpr ⟨_, find_eq_some.mp hf, rfl⟩) hm
  · rw [if_neg hm] at hlists
    exact iff_of_false (find_eq_none.mp (Option.map_eq_none_iff.mp hlists)) hm

theorem nodup_addressIndex (h : s.indexPart.Holds l) : s.addressIndex.Nodup := by
  have hkeys : s.addressIndex = s.addresses.entries.map Prod.fst := h.keys
  rw [hkeys]
  exact s.addresses.nodup

theorem Planned.fromScratch (h : Planned s.indexPart s.streams) : s.FromScratch := by
  obtain ⟨r, hr⟩ := rebuildIndex_unlimited (s := s.scratch) rfl rfl
  have htime : ∀ addr address, s.scratch.addresses.find addr = some address →
      address.lastRebuild ≠ s.scratch.reportTime := by
    intro addr address hf
    cases hf
  obtain ⟨hholds, _, _⟩ := rebuildIndex_ok htime hr
  obtain ⟨hframe, hgrown⟩ := rebuildIndex_frame hr
  have hplan : r.indexPart.plan r.streams = s.indexPart.plan s.streams := by
    obtain ⟨_, _, _, _, _, _, rfl⟩ := hframe
    exact congrArg₂ (· ++ ·) (sendPlan_grown hgrown) (recvPlan_grown hgrown h.2)
  rw [hplan] at hholds
  refine ⟨r, hr, ?_, fun addr => (h.1.lists addr).trans (hholds.lists addr).symm⟩
  refine (perm_ext_iff_of_nodup (nodup_addressIndex h.1) (nodup_addressIndex hholds)).mpr fun addr => ?_
  rw [mem_addressIndex h.1, mem_addressIndex hholds]

structure ListsEach (s : Reporter π) : Prop where
  nodup : s.addressIndex.Nodup
  found : ∀ addr, addr ∈ s.addressIndex ↔ ∃ address, s.addresses.find addr = some address
  configured : s.hasLocalSendReport = true → s.participantReportMode = .toAddress →
    s.participantReportAddr ∈ s.addressIndex
  send : ∀ ssrc stream, s.streams.find ssrc = some stream → s.hasLocalSendReport = true →
    ∀ addr, s.indexPart.sendDestination stream = some addr → addr ∈ s.addressIndex
  recv : ∀ report ∈ s.localRecvReports.items, ∃ stream, s.streams.find report.senderSourceId = some stream ∧
      ∀ addr, s.indexPart.recvDestination stream = some addr → addr ∈ s.addressIndex
  sendCount : ∀ ssrc stream, s.streams.find ssrc = some stream → ∀ addr address, s.addresses.find addr = some address →
      address.sendStreamIndex.count ⟨ssrc, stream.id⟩ =
        if s.hasLocalSendReport = true ∧ s.indexPart.sendDestination stream = some addr then 1 else 0
  recvCount : ∀ ssrc stream, s.streams.find ssrc = some stream → ∀ addr address, s.addresses.find addr = some address →
      address.recvStreamIndex.count ⟨ssrc, stream.id⟩ = if s.indexPart.recvDestination stream = some addr then
          (senders s.localRecvReports.items).count ssrc
        else 0
  current : ∀ addr address, s.addresses.find addr = some address →
    ∀ ptr ∈ address.sendStreamIndex ++ address.recvStreamIndex,
      ∃ stream, s.streams.find ptr.sourceId = some stream ∧ stream.id = ptr.id
  used : ∀ addr address, s.addresses.find addr = some address →
    (s.hasLocalSendReport = true ∧ s.participantReportMode = .toAddress ∧
      addr = s.participantReportAddr) ∨
    address.sendStreamIndex ++ address.recvStreamIndex ≠ []

section
variable {addr : SocketAddr} {address : Address} {l : List Entry}

theorem found_addressIndex (h : s.indexPart.Holds l) :
    addr ∈ s.addressIndex ↔ ∃ address, s.addresses.find addr = some address := by
  have hkeys : s.addressIndex = s.addresses.entries.map Prod.fst := h.keys
  rw [hkeys]
  constructor
  · intro hm
    obtain ⟨⟨_, address⟩, he, rfl⟩ := mem_map.mp hm
    exact ⟨address, find_eq_some.mpr he⟩
  · rintro ⟨address, hf⟩
    exact mem_map.mpr ⟨_, find_eq_some.mp hf, rfl⟩

theorem sendStreamIndex_eq (h : s.indexPart.Holds l)
    (hf : s.addresses.find addr = some address) : address.sendStreamIndex = sends l addr := by
  have hl := h.lists addr
  rw [show s.indexPart.addresses.find addr = some address from hf, Option.map_some] at hl
  split at hl
  · exact congrArg Prod.fst (Option.some.inj hl)
  · cases hl

theorem mem_plan {e : Entry} : e ∈ s.indexPart.plan s.streams ↔
    (s.hasLocalSendReport = true ∧ s.participantReportMode = .toAddress ∧
      e = Entry.bare s.participantReportAddr) ∨
    (s.hasLocalSendReport = true ∧ ∃ ssrc stream addr, s.streams.find ssrc = some stream ∧
      s.indexPart.sendDestination stream = some addr ∧
      e = { addr, send := [⟨ssrc, stream.id⟩] }) ∨
    ∃ r ∈ s.localRecvReports.items, ∃ stream addr, s.streams.find r.senderSourceId = some stream ∧
      s.indexPart.recvDestination stream = some addr ∧
      e = { addr, recv := [⟨r.senderSourceId, stream.id⟩] } := by
  have hconf : e ∈ s.indexPart.configured ↔
      s.participantReportMode = .toAddress ∧ e = Entry.bare s.participantReportAddr := by
    unfold configured indexPart
    cases s.participantReportMode <;> simp
  have hsend : e ∈ s.streams.entries.filterMap s.indexPart.sendEntry ↔
      ∃ ssrc stream addr, s.streams.find ssrc = some stream ∧
        s.indexPart.sendDestination stream = some addr ∧
        e = { addr, send := [⟨ssrc, stream.id⟩] } := by
    rw [mem_filterMap]
    constructor
    · rintro ⟨⟨ssrc, stream⟩, hm, he⟩
      obtain ⟨addr, hd, rfl⟩ := Option.map_eq_some_iff.mp he
      exact ⟨ssrc, stream, addr, find_eq_some.mpr hm, hd, rfl⟩
    · rintro ⟨ssrc, stream, addr, hf, hd, rfl⟩
      exact ⟨(ssrc, stream), find_eq_some.mp hf, Option.map_eq_some_iff.mpr ⟨addr, hd, rfl⟩⟩
  unfold plan
  rw [mem_append, mem_recvPlan, ← or_assoc]
  refine or_congr ?_ Iff.rfl
  rw [← and_or_left, ← hconf, ← hsend, ← mem_append]
  unfold sendPlan
  show _ ↔ s.indexPart.hasLocalSendReport = true ∧ _
  cases s.indexPart.hasLocalSendReport <;> simp

end

theorem Planned.listsEach (h : Planned s.indexPart s.streams) : s.ListsEach := by
  have hmem : ∀ {e : Entry}, e ∈ s.indexPart.plan s.streams → e.addr ∈ s.addressIndex := fun he =>
    (mem_addressIndex h.1).mpr (mem_map.mpr ⟨_, he, rfl⟩)
  have hentry : ∀ {addr address}, s.addresses.find addr = some address →
      ∃ e ∈ s.indexPart.plan s.streams, e.addr = addr := fun hf =>
    mem_map.mp ((mem_addressIndex h.1).mp ((found_addressIndex h.1).mpr ⟨_, hf⟩))
  refine ⟨nodup_addressIndex h.1, fun _ => found_addressIndex h.1, ?_, ?_, ?_, ?_, ?_, ?_, ?_⟩
  · intro hs hm
    exact hmem (mem_plan.mpr (.inl ⟨hs, hm, rfl⟩))
  · intro ssrc stream hf hs addr hd
    exact hmem (mem_plan.mpr (.inr (.inl ⟨hs, ssrc, stream, addr, hf, hd, rfl⟩)))
  · intro report hr
    obtain ⟨stream, hf⟩ := h.2 report hr
    refine ⟨stream, hf, fun addr hd => ?_⟩
    exact hmem (mem_plan.mpr (.inr (.inr ⟨report, hr, stream, addr, hf, hd, rfl⟩)))
  · intro ssrc stream hst addr address hf
    rw [sendStreamIndex_eq h.1 hf]
    exact count_sends_plan hst
  · intro ssrc stream hst addr address hf
    rw [h.1.recvStreamIndex hf]
    exact count_recvs_plan hst
  · intro addr address hf ptr hptr
    rw [sendStreamIndex_eq h.1 hf, h.1.recvStreamIndex hf] at hptr
    rcases mem_append.mp hptr with hptr | hptr
    · obtain ⟨e, he, _, hptr⟩ := Entry.mem_sends.mp hptr
      rcases mem_plan.mp he with ⟨_, _, rfl⟩ | ⟨_, ssrc, stream, _, hst, _, rfl⟩ | ⟨r, _, _, _, _, _, rfl⟩
      · cases hptr
      · rw [mem_singleton.mp hptr]
        exact ⟨stream, hst, rfl⟩
      · cases hptr
    · obtain ⟨r, _, stream, hst, _, rfl⟩ := mem_recvs_plan.mp hptr
      exact ⟨stream, hst, rfl⟩
  · intro addr address hf
    obtain ⟨e, he, rfl⟩ := hentry hf
    rw [sendStreamIndex_eq h.1 hf, h.1.recvStreamIndex hf]
    rcases mem_plan.mp he with ⟨hs, hm, rfl⟩ | ⟨_, ssrc, stream, _, _, _, rfl⟩ | ⟨r, _, stream, _, _, _, rfl⟩
    · exact .inl ⟨hs, hm, rfl⟩
    · refine .inr (ne_nil_of_mem (a := ⟨ssrc, stream.id⟩) (mem_append_left _ ?_))
      exact Entry.mem_sends.mpr ⟨_, he, rfl, by simp⟩
    · refine .inr (ne_nil_of_mem (a := ⟨r.senderSourceId, stream.id⟩) (mem_append_right _ ?_))
      exact Entry.mem_recvs.mpr ⟨_, he, rfl, by simp⟩

/-! ## Fresh after every `begin_*` -/

theorem call_begin_need {c : Call π} (hbegin : c.isBegin = true) (hc : s.call P c = .ok (.ok, s')) :
    s'.needRebuildIndex = false := by
  cases c with
  | beginProcessing reportAddr reportTime | beginGeneration reportTime => exact beginReport_need hc
  | _ => cases hbegin

/-- In every run of calls that do not make the index stale, the index is fresh whenever `begin_*`
succeeds. -/
theorem fresh_of_reaches {c : Call π} (h : Reaches (Initial P) (CallStep P) (IndexSteady P) s)
    (hsteady : IndexSteady P s c) (hbegin : c.isBegin = true) (hc : s.call P c = .ok (.ok, s')) :
    s'.FromScratch ∧ s'.ListsEach := by
  have hinv : s.IndexInv := h.invariant (fun _ => IndexInv.initial)
    fun _ _ _ hinv hsteady hc => hinv.call hsteady hc
  have hplanned := (hinv.call hsteady ⟨_, hc⟩).planned (call_begin_need hbegin hc)
  exact ⟨hplanned.fromScratch, hplanned.listsEach⟩

def senderTo (addr : SocketAddr) : Peer :=
  { info := { cname := some ⟨[115], by decide⟩, sourceId := 1, reportAddress := addr }
    sends := true
    receives := [] }

/-- Nothing that the index depends on has changed since it was built. -/
theorem indexSteady_of_same {time : Int} (hneed : s.needRebuildIndex = false)
    (hnum : P.numRecvStreams s.participant = s.localRecvReports.items.length)
    (hknown : (((s.atTime time).writtenReports P).all fun r => (s.streams.find r.senderSourceId).isSome) = true)
    (hsenders : senders ((s.atTime time).writtenReports P) = senders s.localRecvReports.items)
    (hsend : P.hasSendStream s.participant = s.hasLocalSendReport) : IndexSteady P s (.beginGeneration time) := by
  have hnot : ¬ Noticed P (s.atTime time) := by
    rintro (hn | ⟨hne, -⟩ | ⟨-, r, hr, hnone⟩)
    · exact Bool.false_ne_true (hneed.symm.trans hn)
    · exact hne hnum
    · have hsome := List.all_eq_true.mp hknown r hr
      rw [show s.streams.find r.senderSourceId = none from hnone] at hsome
      cases hsome
  exact ⟨fun hn => absurd hn hnot, fun _ _ => hsenders, fun _ => hsend⟩

/-- The second report of a receiver of two streams. -/
theorem fresh_of_reaches_again : ∃ s : Reporter Peer,
    s.addressIndex = [.ipv4 0x7F000001 5000] ∧ s.FromScratch ∧ s.ListsEach := by
  have hrun : ((Reporter.new Peer.participant {} (receiverOf [10, 20]) []).any fun s =>
      s.needRebuildIndex ∧ s.addresses = .empty ∧
        ((s.call Peer.participant (.beginGeneration 1)).toOption.any fun r =>
          (r.2.call Peer.participant .endGeneration).toOption.any fun r => r.2.needRebuildIndex = false ∧
            Peer.participant.numRecvStreams r.2.participant = r.2.localRecvReports.items.length ∧
            (((r.2.atTime 2).writtenReports Peer.participant).all fun x =>
              (r.2.streams.find x.senderSourceId).isSome) = true ∧
            senders ((r.2.atTime 2).writtenReports Peer.participant) = senders r.2.localRecvReports.items ∧
            Peer.participant.hasSendStream r.2.participant = r.2.hasLocalSendReport ∧
            ((r.2.call Peer.participant (.beginGeneration 2)).toOption.any fun r =>
              r.1 = .ok ∧ r.2.addressIndex = [.ipv4 0x7F000001 5000]) = true) = true) = true := by
    decide +kernel
  obtain ⟨s₀, hn, hs⟩ := (Option.any_eq_true _ _).mp hrun
  obtain ⟨hneed, haddr, hc⟩ := of_decide_eq_true hs
  obtain ⟨⟨code₁, s₁⟩, hbegin, hc⟩ := (Option.any_eq_true _ _).mp hc
  obtain ⟨⟨code₂, s₂⟩, hend, hc⟩ := (Option.any_eq_true _ _).mp hc
  obtain ⟨hdone, hnum, hknown, hsenders, hsend, hc⟩ := of_decide_eq_true hc
  obtain ⟨⟨code₃, s₃⟩, hagain, hc⟩ := (Option.any_eq_true _ _).mp hc
  obtain ⟨rfl, hindex⟩ := of_decide_eq_true hc
  have hsteady : IndexSteady Peer.participant s₀ (.beginGeneration 1) := by
    refine ⟨fun _ addr address hf => ?_, fun hnot => absurd (.inl hneed) hnot,
      fun hnot => absurd (.inl hneed) hnot⟩
    have hf : s₀.addresses.find addr = some address := hf
    rw [haddr] at hf
    cases hf
  have hreach : Reaches (Initial Peer.participant) (CallStep Peer.participant) (IndexSteady Peer.participant) s₂ :=
    .step (a := .endGeneration) (.step (.start ⟨_, _, _, hn⟩) hsteady ⟨code₁, toOption_eq_some hbegin⟩) trivial
      ⟨code₂, toOption_eq_some hend⟩
  exact ⟨s₃, hindex, fresh_of_reaches hreach (indexSteady_of_same hdone hnum hknown hsenders hsend) rfl
    (toOption_eq_some hagain)⟩

/-- RRTR comes in a later packet than RR: the receiver is not listed. -/
theorem lateRrtr_stale : ∃ s s', Reaches (Initial Peer.participant) (CallStep Peer.participant)
    (fun _ _ => True) s ∧ s.call Peer.participant (.beginGeneration 3) = .ok (.ok, s') ∧
      ¬ s'.FromScratch := by
  have hrun : ((runCalls Peer.participant {} (senderTo (.ipv4 1 1))
      [.beginProcessing (.ipv4 2 2) 1,
        .process (.receptionBlock 10 { ReceptionReportBlock.reset with ssrc := 1 }), .endProcessing,
        .beginProcessing (.ipv4 2 2) 2,
        .process (.rrtr { XrPacket.reset with ssrc := 10 }
          { XrRrtrBlock.reset with ntpTimestamp := 0xE000000000000000 }), .endProcessing]).any fun s =>
      (s.call Peer.participant (.beginGeneration 3)).toOption.any fun r =>
        r.1 = .ok ∧ (r.2.scratch.rebuildIndex.toOption.any fun r' =>
          r'.2.listed (.ipv4 1 1) ≠ r.2.listed (.ipv4 1 1)) = true) = true := by
    decide +kernel
  obtain ⟨s, hr, hs⟩ := (Option.any_eq_true _ _).mp hrun
  obtain ⟨⟨code, s'⟩, hc, hs'⟩ := (Option.any_eq_true _ _).mp hs
  obtain ⟨rfl, hsc⟩ := of_decide_eq_true hs'
  obtain ⟨⟨_, r'⟩, hr', hne⟩ := (Option.any_eq_true _ _).mp hsc
  refine ⟨s, s', reaches_runCalls hr, toOption_eq_some hc, ?_⟩
  rintro ⟨r, hreb, _, hl⟩
  rw [toOption_eq_some hr'] at hreb
  cases hreb
  exact of_decide_eq_true hne (hl _).symm

end Roc.Rtcp.Reporter
