import RocToolkit.Rtcp.Calls

/-!
# RocToolkit.Rtcp.Index

The destination index of the reporter. `plan` says what the index should hold: a list of entries, each
a destination with the streams listed there, read off the streams and the local reports. `rebuild_index_`
builds exactly that if no address carries the time of the rebuild already; between two rebuilds the
index stays right as long as nothing changes the plan without asking for a new index.
-/

namespace Roc.Rtcp

open List IndexPart Option LruTable.Extends LruTable Loop Address

structure Entry where
  addr : SocketAddr
  send : List StreamPtr := []
  recv : List StreamPtr := []
deriving DecidableEq, Repr

namespace Entry

def bare (addr : SocketAddr) : Entry := { addr }

@[simp] theorem bare_addr (addr : SocketAddr) : (bare addr).addr = addr := rfl
@[simp] theorem bare_send (addr : SocketAddr) : (bare addr).send = [] := rfl
@[simp] theorem bare_recv (addr : SocketAddr) : (bare addr).recv = [] := rfl

def sends (l : List Entry) (addr : SocketAddr) : List StreamPtr := (l.filter fun e => e.addr = addr).flatMap Entry.send

def recvs (l : List Entry) (addr : SocketAddr) : List StreamPtr := (l.filter fun e => e.addr = addr).flatMap Entry.recv

def push (e : Entry) (address : Address) : Address :=
  { address with sendStreamIndex := address.sendStreamIndex ++ e.send
                 recvStreamIndex := address.recvStreamIndex ++ e.recv }

section
variable {l : List Entry} {e : Entry} {addr : SocketAddr}

theorem sends_concat : sends (l ++ [e]) addr = sends l addr ++ if e.addr = addr then e.send else [] := by
  unfold sends
  by_cases h : e.addr = addr <;> simp [h]

theorem recvs_concat : recvs (l ++ [e]) addr = recvs l addr ++ if e.addr = addr then e.recv else [] := by
  unfold recvs
  by_cases h : e.addr = addr <;> simp [h]

theorem sends_bare (a : SocketAddr) : sends (l ++ [bare addr]) a = sends l a := by
  rw [sends_concat]
  split <;> exact append_nil _

theorem recvs_bare (a : SocketAddr) : recvs (l ++ [bare addr]) a = recvs l a := by
  rw [recvs_concat]
  split <;> exact append_nil _

section
variable (h : addr ∉ l.map Entry.addr)
include h

theorem filter_of_not_mem : (l.filter fun e => e.addr = addr) = [] := by
  refine filter_eq_nil_iff.mpr fun e he heq => h ?_
  exact mem_map.mpr ⟨e, he, by simpa using heq⟩

theorem sends_of_not_mem : sends l addr = [] := by
  unfold sends
  rw [filter_of_not_mem h]
  rfl

theorem recvs_of_not_mem : recvs l addr = [] := by
  unfold recvs
  rw [filter_of_not_mem h]
  rfl

end
end
end Entry

open Entry (sends recvs)

/-! ## The plan -/

namespace IndexPart

variable (p : IndexPart)

def destination (stream : Stream) : SocketAddr :=
  match p.reportMode with
  | .toAddress => p.reportAddr
  | .back => stream.remoteAddress

/-- Where a stream is listed as sending: if it is not our own and its receiver sent RR and RRTR. -/
def sendDestination (stream : Stream) : Option SocketAddr :=
  if stream.isLooped || (!stream.hasRemoteRecvReport || stream.remoteRecvReport.reportTimestamp == 0)
  then none else some (p.destination stream)

/-- Where a stream is listed as receiving: if it is not our own and it is known where to report. -/
def recvDestination (stream : Stream) : Option SocketAddr :=
  if stream.isLooped || (p.reportMode == .back &&
    (!stream.hasRemoteSendReport || stream.remoteSendReport.reportTimestamp == 0))
  then none else some (p.destination stream)

def sendEntry (entry : UInt32 × Stream) : Option Entry :=
  (p.sendDestination entry.2).map fun addr => { addr, send := [⟨entry.1, entry.2.id⟩] }

def recvEntry (streams : LruTable UInt32 Stream) (report : RecvReport) : Option Entry :=
  (streams.find report.senderSourceId).bind fun stream =>
    (p.recvDestination stream).map fun addr =>
      { addr, recv := [⟨report.senderSourceId, stream.id⟩] }

def configured : List Entry :=
  match p.reportMode with
  | .toAddress => [Entry.bare p.reportAddr]
  | .back => []

def sendPlan (streams : LruTable UInt32 Stream) : List Entry :=
  if p.hasLocalSendReport then p.configured ++ streams.entries.filterMap p.sendEntry else []

def recvPlan (streams : LruTable UInt32 Stream) (reports : List RecvReport) : List Entry :=
  reports.filterMap (p.recvEntry streams)

def plan (streams : LruTable UInt32 Stream) : List Entry :=
  p.sendPlan streams ++ p.recvPlan streams p.localRecvReports.items

/-- The index holds what the entries say: their destinations, and under each the streams listed for
it. -/
structure Holds (l : List Entry) : Prop where
  keys : p.addressIndex = p.addresses.entries.map Prod.fst
  lists : ∀ addr, (p.addresses.find addr).map (fun a => (a.sendStreamIndex, a.recvStreamIndex)) =
    if addr ∈ l.map Entry.addr then some (sends l addr, recvs l addr) else none

end IndexPart

/-! ## Building the addresses -/

/-- During a rebuild at `time`: the addresses with that time are those used so far, with the streams
listed so far, and they are at the front of the LRU list. -/
structure Built (time : Int) (l : List Entry) (t : LruTable SocketAddr Address) : Prop where
  front : t.Front fun address => (address.lastRebuild == time) = true
  used : ∀ addr address, (t.find addr = some address ∧ address.lastRebuild = time) ↔
    (addr ∈ l.map Entry.addr ∧ address = ⟨sends l addr, recvs l addr, time⟩)

/-- `find_address_` and `rebuild_address_`, on the table. -/
def takeAddress (t : LruTable SocketAddr Address) (addr : SocketAddr) (time : Int) : LruTable SocketAddr Address :=
  match t.find addr with
  | none => t.insert addr { lastRebuild := time }
  | some address =>
    if address.lastRebuild = time then t
    else (t.modify addr fun _ => { lastRebuild := time }).touch addr

section
variable {time : Int} {l : List Entry} {t : LruTable SocketAddr Address} {addr : SocketAddr}

theorem Built.of_none (h : ∀ addr address, t.find addr = some address → address.lastRebuild ≠ time) :
    Built time [] t := by
  refine ⟨.of_none ?_, ?_⟩
  · intro addr address hf ht
    exact h addr address hf (by simpa using ht)
  · intro addr address
    constructor
    · rintro ⟨hf, ht⟩
      exact absurd ht (h addr address hf)
    · rintro ⟨hm, _⟩
      cases hm

theorem Built.mem_iff (h : Built time l t) :
    addr ∈ l.map Entry.addr ↔ ∃ address, t.find addr = some address ∧ address.lastRebuild = time := by
  constructor
  · intro hm
    exact ⟨_, (h.used addr _).mpr ⟨hm, rfl⟩⟩
  · rintro ⟨address, ha⟩
    exact ((h.used addr address).mp ha).1

theorem mem_map_concat_bare {a : SocketAddr} (ha : a ≠ addr) :
    a ∈ (l ++ [Entry.bare addr]).map Entry.addr ↔ a ∈ l.map Entry.addr := by
  simp [ha]

theorem Built.first {t' : LruTable SocketAddr Address} (h : Built time l t)
    (hold : ∀ address, t.find addr = some address → address.lastRebuild ≠ time)
    (hfront : t'.Front fun address => (address.lastRebuild == time) = true)
    (hfind : ∀ a, t'.find a = if a = addr then some { lastRebuild := time } else t.find a) :
    Built time (l ++ [Entry.bare addr]) t' := by
  have hnot : addr ∉ l.map Entry.addr := by
    rw [h.mem_iff]
    rintro ⟨address, hf, ht⟩
    exact hold address hf ht
  refine ⟨hfront, fun a address => ?_⟩
  rw [hfind, Entry.sends_bare, Entry.recvs_bare]
  by_cases ha : a = addr
  · rw [if_pos ha, ha, Entry.sends_of_not_mem hnot, Entry.recvs_of_not_mem hnot]
    constructor
    · rintro ⟨he, _⟩
      cases he
      exact ⟨by simp, rfl⟩
    · rintro ⟨_, rfl⟩
      exact ⟨rfl, rfl⟩
  · rw [if_neg ha, mem_map_concat_bare ha]
    exact h.used a address

theorem Built.take (h : Built time l t) (addr : SocketAddr) :
    Built time (l ++ [Entry.bare addr]) (takeAddress t addr time) := by
  unfold takeAddress
  cases hf : t.find addr with
  | none =>
    refine h.first (fun address he => ?_) (h.front.insert hf (by simp)) fun a => find_insert hf
    rw [hf] at he
    cases he
  | some before =>
    by_cases ht : before.lastRebuild = time
    · simp only [ht, if_true]
      refine ⟨h.front, ?_⟩
      intro a address
      rw [Entry.sends_bare, Entry.recvs_bare]
      by_cases ha : a = addr
      · have hin : addr ∈ l.map Entry.addr := h.mem_iff.mpr ⟨before, hf, ht⟩
        rw [ha, h.used addr address]
        simp [hin]
      · rw [mem_map_concat_bare ha]
        exact h.used a address
    · simp only [ht, if_false]
      refine h.first (fun address he => ?_) (h.front.modify_touch hf (by simp)) fun a => ?_
      · rw [hf] at he
        cases he
        exact ht
      · rw [find_touch, find_modify, hf]
        rfl

theorem Built.push {e : Entry} (h : Built time (l ++ [Entry.bare e.addr]) t) :
    Built time (l ++ [e]) (t.modify e.addr e.push) := by
  have hmap : (l ++ [e]).map Entry.addr = (l ++ [Entry.bare e.addr]).map Entry.addr := by simp
  refine ⟨h.front.modify fun b _ => by simp [Entry.push], ?_⟩
  intro a address
  rw [find_modify, hmap, Entry.sends_concat, Entry.recvs_concat]
  by_cases ha : a = e.addr
  · rw [if_pos ha, ha, if_pos rfl, if_pos rfl]
    have hin : e.addr ∈ (l ++ [Entry.bare e.addr]).map Entry.addr := by simp
    obtain ⟨hf, _⟩ := (h.used e.addr _).mpr ⟨hin, rfl⟩
    rw [hf, Entry.sends_bare, Entry.recvs_bare]
    simp only [map_some, Entry.push, some.injEq]
    constructor
    · rintro ⟨rfl, _⟩
      exact ⟨hin, rfl⟩
    · rintro ⟨_, rfl⟩
      exact ⟨rfl, rfl⟩
  · have hne : e.addr ≠ a := fun he => ha he.symm
    rw [if_neg ha, if_neg hne, if_neg hne, h.used a address, Entry.sends_bare, Entry.recvs_bare, append_nil, append_nil]

end

/-! ## Rebuilding -/

namespace Reporter

variable {π : Type} {s s' s0 : Reporter π} {addr : SocketAddr} {l : List Entry}

def SameButAddresses (s s' : Reporter π) : Prop := ∃ arena addresses, s' = { s with arena, addresses }

theorem useAddress_ok (h : s.useAddress addr = (true, s')) :
    ∃ arena, s' = { s with arena, addresses := takeAddress s.addresses addr s.reportTime } := by
  unfold useAddress findAddress at h
  unfold takeAddress
  cases hf : s.addresses.find addr with
  | some address =>
    simp only [hf, rebuildAddress] at h
    by_cases ht : address.lastRebuild = s.reportTime
    · simp only [ht, if_true] at h ⊢
      cases h
      exact ⟨_, rfl⟩
    · simp only [ht, if_false] at h ⊢
      cases h
      exact ⟨_, rfl⟩
  | none =>
    simp only [hf, alloc_eq] at h
    cases ha : s.arena.headD true with
    | false => rw [ha] at h; cases h
    | true =>
      rw [ha] at h
      simp only [rebuildAddress, find_insert hf, if_true] at h
      cases h
      exact ⟨_, rfl⟩

theorem pushStream_ok {f : Address → Address} (h : s.pushStream addr f = (true, s')) :
    ∃ arena, s' = { s with arena, addresses := s.addresses.modify addr f } := by
  unfold pushStream at h
  rw [alloc_eq] at h
  cases ha : s.arena.headD true with
  | false => rw [ha] at h; cases h
  | true =>
    rw [ha] at h
    cases h
    exact ⟨_, rfl⟩

theorem Built.use_push {s1 : Reporter π} {e : Entry} (hb : Built s.reportTime l s.addresses)
    (hu : s.useAddress e.addr = (true, s1)) (hp : s1.pushStream e.addr e.push = (true, s')) :
    s.SameButAddresses s' ∧
      Built s.reportTime (l ++ [e]) s'.addresses := by
  obtain ⟨arena, rfl⟩ := useAddress_ok hu
  obtain ⟨arena', rfl⟩ := pushStream_ok hp
  exact ⟨⟨_, _, rfl⟩, (hb.take e.addr).push⟩

theorem indexSendStream_ok {entry : UInt32 × Stream} (hb : Built s.reportTime l s.addresses)
    (h : s.indexSendStream entry = (true, s')) :
    s.SameButAddresses s' ∧
      Built s.reportTime (l ++ (s.indexPart.sendEntry entry).toList) s'.addresses := by
  obtain ⟨ssrc, stream⟩ := entry
  unfold indexSendStream at h
  by_cases hskip : (stream.isLooped || (!stream.hasRemoteRecvReport ||
      stream.remoteRecvReport.reportTimestamp == 0)) = true
  · -- the stream is not listed
    have hnone : s.indexPart.sendEntry (ssrc, stream) = none := by
      simp only [sendEntry, sendDestination, hskip, if_true, map_none]
    have hs : s' = s := by
      rcases Bool.or_eq_true_iff.mp hskip with hl | hr
      · simp only [hl, if_true] at h
        cases h
        rfl
      · cases hl : stream.isLooped with
        | true =>
          simp only [hl, if_true] at h
          cases h
          rfl
        | false =>
          simp only [hl, hr, Bool.false_eq_true, if_false, if_true] at h
          cases h
          rfl
    rw [hnone, hs, toList_none, append_nil]
    exact ⟨⟨_, _, rfl⟩, hb⟩
  · let e : Entry := { addr := s.destination stream, send := [⟨ssrc, stream.id⟩] }
    have hsome : s.indexPart.sendEntry (ssrc, stream) = some e := by
      simp only [sendEntry, sendDestination, hskip, Bool.false_eq_true, if_false, map_some]
      rfl
    obtain ⟨hl, hr⟩ := not_or.mp (mt Bool.or_eq_true_iff.mpr hskip)
    simp only [hl, hr, Bool.false_eq_true, if_false] at h
    cases hu : s.useAddress (s.destination stream) with
    | mk done s1 =>
      rw [hu] at h
      cases done with
      | false => cases h
      | true =>
        have hdest : s1.destination stream = e.addr := by
          obtain ⟨_, rfl⟩ := useAddress_ok hu
          rfl
        have hpush : listSend ⟨ssrc, stream.id⟩ = e.push := by
          funext address
          simp [e, Entry.push, listSend]
        rw [hsome]
        simp only [hdest, hpush] at h
        exact Built.use_push hb hu h

theorem filterMap_concat {α β : Type} (f : α → Option β) (l : List α) (a : α) :
    (l ++ [a]).filterMap f = l.filterMap f ++ (f a).toList := by
  rw [filterMap_append]
  cases h : f a <;> simp [h]

theorem indexSendLoop_ok (hb : Built s.reportTime l s.addresses) {entries : List (UInt32 × Stream)}
    (h : forEach indexSendStream entries s = (true, s')) :
    s.SameButAddresses s' ∧
      Built s.reportTime (l ++ entries.filterMap s.indexPart.sendEntry) s'.addresses := by
  refine forEach_keeps (I := fun pre x =>
    s.SameButAddresses x ∧
      Built s.reportTime (l ++ pre.filterMap s.indexPart.sendEntry) x.addresses)
    ?_ entries [] ⟨⟨_, _, rfl⟩, by simpa using hb⟩ h
  rintro pre entry x x' ⟨⟨arena, addresses, rfl⟩, hbx⟩ hx
  obtain ⟨⟨arena', addresses', rfl⟩, hbx'⟩ := indexSendStream_ok hbx hx
  refine ⟨⟨_, _, rfl⟩, ?_⟩
  rw [filterMap_concat, ← append_assoc]
  exact hbx'

theorem indexSendStreams_ok (hb : Built s.reportTime [] s.addresses) (h : s.indexSendStreams = (true, s')) :
    s.SameButAddresses s' ∧
      Built s.reportTime (s.indexPart.sendPlan s.streams) s'.addresses := by
  unfold indexSendStreams at h
  unfold sendPlan configured
  cases hsend : s.hasLocalSendReport with
  | false =>
    rw [hsend] at h
    cases h
    simp only [indexPart, hsend, Bool.false_eq_true, if_false]
    exact ⟨⟨_, _, rfl⟩, hb⟩
  | true =>
    have hsend' : s.indexPart.hasLocalSendReport = true := hsend
    rw [if_pos hsend']
    simp only [hsend, Bool.not_true, Bool.false_eq_true, if_false] at h
    cases hmode : s.participantReportMode with
    | back =>
      have hmode' : s.indexPart.reportMode = .back := hmode
      rw [hmode] at h
      simp only [hmode']
      exact indexSendLoop_ok hb h
    | toAddress =>
      have hmode' : s.indexPart.reportMode = .toAddress := hmode
      rw [hmode] at h
      simp only [hmode']
      cases hu : s.useAddress s.participantReportAddr with
      | mk done s1 =>
        rw [hu] at h
        cases done with
        | false => cases h
        | true =>
          obtain ⟨arena, rfl⟩ := useAddress_ok hu
          obtain ⟨⟨arena', addresses', rfl⟩, hb'⟩ := indexSendLoop_ok (hb.take _) h
          exact ⟨⟨_, _, rfl⟩, hb'⟩

def Relinked (a b : Stream) : Prop := ∃ ptr, b = { a with localRecvReport := ptr }

def Fresh (a : Stream) : Prop := ∃ id time ptr, a = { id, lastUpdate := time, localRecvReport := ptr }

theorem Relinked.refl (a : Stream) : Relinked a a := ⟨a.localRecvReport, rfl⟩

theorem Relinked.trans {a b c : Stream} (hab : Relinked a b) (hbc : Relinked b c) : Relinked a c := by
  obtain ⟨_, rfl⟩ := hab
  obtain ⟨_, rfl⟩ := hbc
  exact ⟨_, rfl⟩

theorem Fresh.relinked {a b : Stream} (ha : Fresh a) (hab : Relinked a b) : Fresh b := by
  obtain ⟨_, _, _, rfl⟩ := ha
  obtain ⟨_, rfl⟩ := hab
  exact ⟨_, _, _, rfl⟩

def Grown (t t' : LruTable UInt32 Stream) : Prop := t.Extends Relinked Fresh t'

theorem Grown.refl (t : LruTable UInt32 Stream) : Grown t t := LruTable.Extends.refl Relinked.refl

variable {t t' : LruTable UInt32 Stream}

theorem Grown.trans {t'' : LruTable UInt32 Stream} (h : Grown t t') (h' : Grown t' t'') : Grown t t'' :=
  LruTable.Extends.trans h h' (fun _ _ _ => Relinked.trans) fun _ _ => Fresh.relinked

variable {p : IndexPart}

theorem sendPlan_grown (h : Grown t t') : p.sendPlan t' = p.sendPlan t := by
  have he : t'.entries.filterMap p.sendEntry = t.entries.filterMap p.sendEntry := by
    refine filterMap h ?_ ?_
    · rintro k a b ⟨_, rfl⟩
      rfl
    · rintro k a ⟨_, _, _, rfl⟩
      rfl
  unfold sendPlan
  rw [he]

theorem recvPlan_grown {reports : List RecvReport}
    (h : Grown t t') (hknown : ∀ r ∈ reports, ∃ stream, t.find r.senderSourceId = some stream) :
    p.recvPlan t' reports = p.recvPlan t reports := by
  refine filterMap_congr fun r hr => ?_
  obtain ⟨stream, hf⟩ := hknown r hr
  obtain ⟨_, hf', _, rfl⟩ := find h hf
  unfold recvEntry
  rw [hf, hf']
  rfl

def SameButIndex (s s' : Reporter π) : Prop :=
  ∃ arena addresses addressIndex streams nextStream reportError, s' = { s with
    arena, addresses, addressIndex, streams := streams
    nextStream, reportError, needRebuildIndex := true }

/-- After the reports `done` were indexed in a rebuild that began its second loop in `s₀` with the
entries `l`. The stream of a listed report points to a report of its own. -/
structure Linking (s₀ : Reporter π) (l : List Entry) (done : List (RecvReport × Nat))
    (s : Reporter π) : Prop where
  frame : s₀.SameButIndex s
  grown : Grown s₀.streams s.streams
  built : Built s₀.reportTime (l ++ s₀.indexPart.recvPlan s.streams (done.map Prod.fst)) s.addresses
  linked : ∀ e ∈ done, ∃ stream, s.streams.find e.1.senderSourceId = some stream ∧
    (s₀.indexPart.recvDestination stream ≠ none → ∃ e' ∈ done, e'.1.senderSourceId = e.1.senderSourceId ∧
      stream.localRecvReport = some ⟨s₀.localRecvReports.block, e'.2⟩)

section
variable {done : List (RecvReport × Nat)} {report : RecvReport} {i : Nat}

theorem Linking.start (hneed : s0.needRebuildIndex = true)
    (hb : Built s0.reportTime l s0.addresses) : Linking s0 l [] s0 := by
  refine ⟨⟨s0.arena, s0.addresses, s0.addressIndex, s0.streams, s0.nextStream, s0.reportError, ?_⟩,
    .refl _, ?_, by simp⟩
  · cases s0
    cases hneed
    rfl
  · simpa [recvPlan] using hb

theorem Linking.known (h : Linking s0 l done s) :
    ∀ r ∈ done.map Prod.fst, ∃ stream, s.streams.find r.senderSourceId = some stream := by
  intro r hr
  obtain ⟨e, he, rfl⟩ := mem_map.mp hr
  obtain ⟨stream, hf, _⟩ := h.linked e he
  exact ⟨stream, hf⟩

theorem Linking.find (h : Linking s0 l done s) {ssrc : UInt32} {stream : Stream}
    {s1 : Reporter π} (hf : s.findStream ssrc .autoCreate = (some stream, s1)) :
    Linking s0 l done s1 ∧ s1.streams.find ssrc = some stream := by
  rcases findStream_cases s ssrc .autoCreate with ⟨st, hst, he⟩ | ⟨_, hm, _⟩ | ⟨_, _, he⟩ | ⟨hn, _, he⟩
  · rw [hf] at he
    cases he
    exact ⟨h, hst⟩
  · cases hm
  · rw [hf] at he
    cases he
  · rw [hf] at he
    cases he
    have hgrow : Grown s.streams (s.streams.insert ssrc s.freshStream) := insert Relinked.refl hn ⟨_, _, _, rfl⟩
    have hknown := h.known
    obtain ⟨⟨arena, addresses, addressIndex, streams, next, err, rfl⟩, hg, hb, hl⟩ := h
    refine ⟨⟨⟨_, _, _, _, _, _, rfl⟩, hg.trans hgrow, ?_, ?_⟩, ?_⟩
    · show Built _ (l ++ s0.indexPart.recvPlan (streams.insert ssrc _) _) _
      rw [recvPlan_grown hgrow hknown]
      exact hb
    · intro e he
      obtain ⟨st, hst, hlink⟩ := hl e he
      refine ⟨st, ?_, hlink⟩
      show (streams.insert ssrc _).find e.1.senderSourceId = some st
      rw [find_insert hn, if_neg]
      · exact hst
      · intro heq
        rw [heq] at hst
        have hn : streams.find ssrc = none := hn
        rw [hn] at hst
        cases hst
    · show (streams.insert ssrc _).find ssrc = some _
      rw [find_insert hn, if_pos rfl]

theorem recvPlan_concat (p : IndexPart) (t : LruTable UInt32 Stream) :
    p.recvPlan t ((done ++ [(report, i)]).map Prod.fst) =
      p.recvPlan t (done.map Prod.fst) ++ (p.recvEntry t report).toList := by
  unfold recvPlan
  rw [map_append]
  exact filterMap_concat _ _ _

section
variable {stream : Stream} (h : Linking s0 l done s) (hf : s.streams.find report.senderSourceId = some stream)
include h hf

theorem Linking.skip (hskip : s0.indexPart.recvDestination stream = none) : Linking s0 l (done ++ [(report, i)]) s := by
  have hnone : s0.indexPart.recvEntry s.streams report = none := by
    unfold recvEntry
    rw [hf, bind_some, hskip]
    rfl
  refine ⟨h.frame, h.grown, ?_, ?_⟩
  · rw [recvPlan_concat, hnone, toList_none, append_nil]
    exact h.built
  · intro e he
    rcases mem_append.mp he with he | he
    · obtain ⟨st, hst, hlink⟩ := h.linked e he
      refine ⟨st, hst, fun hd => ?_⟩
      obtain ⟨e', he', hrest⟩ := hlink hd
      exact ⟨e', mem_append_left _ he', hrest⟩
    · rw [mem_singleton.mp he]
      exact ⟨stream, hf, fun hd => absurd hskip hd⟩

/-- A report whose stream was listed under `addr` and is pointed to the report now. -/
theorem Linking.link (hdest : s0.indexPart.recvDestination stream = some addr) {s1 : Reporter π}
    (hframe : s.SameButAddresses s1)
    (hb : Built s0.reportTime (l ++ s0.indexPart.recvPlan s.streams (done.map Prod.fst) ++
      [{ addr, recv := [⟨report.senderSourceId, stream.id⟩] }]) s1.addresses) :
    Linking s0 l (done ++ [(report, i)]) (s1.modifyStream report.senderSourceId fun stream =>
      { stream with localRecvReport := some ⟨s1.localRecvReports.block, i⟩ }) := by
  have hknown := h.known
  obtain ⟨⟨arena, addresses, addressIndex, streams, next, err, rfl⟩, hg, _, hl⟩ := h
  obtain ⟨arena', addresses', rfl⟩ := hframe
  have hf : streams.find report.senderSourceId = some stream := hf
  let ptr : Option ReportPtr := some ⟨s0.localRecvReports.block, i⟩
  let streams' := streams.modify report.senderSourceId fun stream =>
    { stream with localRecvReport := ptr }
  have hgrow : Grown streams streams' := modify Relinked.refl fun a _ => ⟨ptr, rfl⟩
  have hf' : streams'.find report.senderSourceId = some { stream with localRecvReport := ptr } := by
    rw [find_modify, if_pos rfl, hf]
    rfl
  have hentry : s0.indexPart.recvEntry streams' report =
      some { addr, recv := [⟨report.senderSourceId, stream.id⟩] } := by
    have hdest' : s0.indexPart.recvDestination { stream with localRecvReport := ptr } = some addr := hdest
    unfold recvEntry
    rw [hf', bind_some, hdest']
    rfl
  refine ⟨⟨_, _, _, _, _, _, rfl⟩, hg.trans hgrow, ?_, ?_⟩
  · show Built _ (l ++ s0.indexPart.recvPlan streams' _) addresses'
    rw [recvPlan_concat, hentry, recvPlan_grown hgrow hknown, ← append_assoc]
    exact hb
  · intro e he
    show ∃ st, streams'.find e.1.senderSourceId = some st ∧ _
    by_cases hk : e.1.senderSourceId = report.senderSourceId
    · rw [hk]
      exact ⟨_, hf', fun _ => ⟨(report, i), by simp, rfl, rfl⟩⟩
    · rcases mem_append.mp he with he | he
      · obtain ⟨st, hst, hlink⟩ := hl e he
        refine ⟨st, ?_, fun hd => ?_⟩
        · rw [find_modify, if_neg hk]
          exact hst
        · obtain ⟨e', he', hrest⟩ := hlink hd
          exact ⟨e', mem_append_left _ he', hrest⟩
      · rw [mem_singleton.mp he] at hk
        exact absurd rfl hk

end

theorem Linking.step (h : Linking s0 l done s) (hs : s.indexRecvStream (report, i) = (true, s')) :
    Linking s0 l (done ++ [(report, i)]) s' := by
  unfold indexRecvStream at hs
  cases hfs : s.findStream report.senderSourceId .autoCreate with
  | mk found s1 =>
    simp only [hfs] at hs
    cases found with
    | none => cases hs
    | some stream =>
      obtain ⟨h1, hf⟩ := h.find hfs
      have hmode : s1.participantReportMode = s0.indexPart.reportMode := by
        obtain ⟨_, _, _, _, _, _, rfl⟩ := h1.frame
        rfl
      have htime : s1.reportTime = s0.reportTime := by
        obtain ⟨_, _, _, _, _, _, rfl⟩ := h1.frame
        rfl
      have hdest : s1.destination stream = s0.indexPart.destination stream := by
        obtain ⟨_, _, _, _, _, _, rfl⟩ := h1.frame
        rfl
      simp only [hmode, hdest] at hs
      by_cases hskip : (stream.isLooped || (s0.indexPart.reportMode == .back &&
          (!stream.hasRemoteSendReport || stream.remoteSendReport.reportTimestamp == 0))) = true
      · have hs : s' = s1 := by
          cases hl : stream.isLooped with
          | true =>
            simp only [hl, if_true] at hs
            cases hs
            rfl
          | false =>
            rw [hl, Bool.false_or] at hskip
            simp only [hl, hskip, Bool.false_eq_true, if_false, if_true] at hs
            cases hs
            rfl
        rw [hs]
        refine h1.skip hf ?_
        unfold recvDestination
        rw [if_pos hskip]
      · obtain ⟨hl, hr⟩ := not_or.mp (mt Bool.or_eq_true_iff.mpr hskip)
        simp only [hl, hr, Bool.false_eq_true, if_false] at hs
        cases hu : s1.useAddress (s0.indexPart.destination stream) with
        | mk done2 s2 =>
          rw [hu] at hs
          cases done2 with
          | false => cases hs
          | true =>
            have hdest2 : s2.destination stream = s0.indexPart.destination stream := by
              rw [← hdest]
              obtain ⟨_, rfl⟩ := useAddress_ok hu
              rfl
            let e : Entry := { addr := s0.indexPart.destination stream
                               recv := [⟨report.senderSourceId, stream.id⟩] }
            have hpush : listRecv ⟨report.senderSourceId, stream.id⟩ = e.push := by
              funext address
              simp [e, Entry.push, listRecv]
            simp only [hdest2, hpush] at hs
            cases hp : s2.pushStream (s0.indexPart.destination stream) e.push with
            | mk done3 s3 =>
              rw [hp] at hs
              cases done3 with
              | false => cases hs
              | true =>
                cases hs
                have hb := h1.built
                rw [← htime] at hb
                obtain ⟨hframe, hb'⟩ := Built.use_push (e := e) hb hu hp
                rw [htime] at hb'
                refine h1.link hf ?_ hframe hb'
                unfold recvDestination
                rw [if_neg hskip]

theorem indexRecvStreams_ok (hneed : s.needRebuildIndex = true)
    (hb : Built s.reportTime l s.addresses) {entries : List (RecvReport × Nat)}
    (h : forEach indexRecvStream entries s = (true, s')) : Linking s l entries s' := by
  refine forEach_keeps (I := fun done x => Linking s l done x) ?_ entries [] (.start hneed hb) h
  rintro done ⟨report, i⟩ x x' hx hs
  exact hx.step hs

end

end Reporter

def IndexPart.RecvLinked (p : IndexPart) (streams : LruTable UInt32 Stream) : Prop :=
  ∀ addr address, p.addresses.find addr = some address → ∀ ptr ∈ address.recvStreamIndex,
    ∃ stream i report, streams.find ptr.sourceId = some stream ∧ stream.id = ptr.id ∧
      stream.localRecvReport = some ⟨p.localRecvReports.block, i⟩ ∧
      p.localRecvReports.items[i]? = some report ∧ report.senderSourceId = ptr.sourceId

namespace Entry

variable {addr : SocketAddr} {ptr : StreamPtr} {l : List Entry}

theorem mem_recvs : ptr ∈ recvs l addr ↔ ∃ e ∈ l, e.addr = addr ∧ ptr ∈ e.recv := by
  unfold recvs
  simp only [mem_flatMap, mem_filter, decide_eq_true_eq, and_assoc]

theorem mem_sends : ptr ∈ sends l addr ↔ ∃ e ∈ l, e.addr = addr ∧ ptr ∈ e.send := by
  unfold sends
  simp only [mem_flatMap, mem_filter, decide_eq_true_eq, and_assoc]

/-- How often a pointer is listed under a destination by entries that come from the elements of a
list, each of which lists the pointer once or not at all. -/
theorem count_flatMap {α : Type} {f : α → Option Entry} {g : Entry → List StreamPtr} {key : α → UInt32}
    {ssrc : UInt32} {cond : Prop} [Decidable cond] {l : List α}
    (h : ∀ a ∈ l, (((f a).toList.filter fun e => e.addr = addr).flatMap g).count ptr =
      if cond ∧ key a = ssrc then 1 else 0) :
    (((l.filterMap f).filter fun e => e.addr = addr).flatMap g).count ptr =
      if cond then (l.map key).count ssrc else 0 := by
  induction l with
  | nil => simp
  | cons a l ih =>
    have ha := h a mem_cons_self
    have hl := ih fun b hb => h b (mem_cons_of_mem a hb)
    rw [filterMap_eq_flatMap_toList, flatMap_cons, filter_append, flatMap_append,
      count_append, ← filterMap_eq_flatMap_toList, ha, hl, map_cons, count_cons]
    by_cases hc : cond <;> by_cases hk : key a = ssrc <;> simp [hc, hk, Nat.add_comm]

end Entry

namespace IndexPart

variable {p : IndexPart} {t : LruTable UInt32 Stream} {addr : SocketAddr} {ptr : StreamPtr}
  {ssrc : UInt32} {stream : Stream}

variable {e : Entry} {l : List Entry}

theorem recv_of_mem_sendPlan (h : e ∈ p.sendPlan t) : e.recv = [] := by
  unfold sendPlan at h
  split at h
  · rcases mem_append.mp h with h | h
    · unfold configured at h
      split at h
      · rw [mem_singleton.mp h]
        rfl
      · cases h
    · obtain ⟨entry, _, he⟩ := mem_filterMap.mp h
      obtain ⟨_, _, rfl⟩ := map_eq_some_iff.mp he
      rfl
  · cases h

variable {reports : List RecvReport}

theorem mem_recvPlan : e ∈ p.recvPlan t reports ↔ ∃ r ∈ reports, ∃ stream addr, t.find r.senderSourceId = some stream ∧
      p.recvDestination stream = some addr ∧
      e = { addr, recv := [⟨r.senderSourceId, stream.id⟩] } := by
  unfold recvPlan recvEntry
  rw [mem_filterMap]
  constructor
  · rintro ⟨r, hr, he⟩
    obtain ⟨stream, hf, he⟩ := bind_eq_some_iff.mp he
    obtain ⟨addr, hd, rfl⟩ := map_eq_some_iff.mp he
    exact ⟨r, hr, stream, addr, hf, hd, rfl⟩
  · rintro ⟨r, hr, stream, addr, hf, hd, rfl⟩
    refine ⟨r, hr, ?_⟩
    rw [hf, bind_some, hd]
    rfl

theorem mem_recvs_plan : ptr ∈ recvs (p.plan t) addr ↔ ∃ r ∈ p.localRecvReports.items, ∃ stream,
    t.find r.senderSourceId = some stream ∧ p.recvDestination stream = some addr ∧
    ptr = ⟨r.senderSourceId, stream.id⟩ := by
  rw [Entry.mem_recvs]
  constructor
  · rintro ⟨e, he, haddr, hptr⟩
    rcases mem_append.mp he with he | he
    · rw [recv_of_mem_sendPlan he] at hptr
      cases hptr
    · obtain ⟨r, hr, stream, a, hf, hd, rfl⟩ := mem_recvPlan.mp he
      cases haddr
      exact ⟨r, hr, stream, hf, hd, mem_singleton.mp hptr⟩
  · rintro ⟨r, hr, stream, hf, hd, rfl⟩
    exact ⟨_, mem_append_right _ (mem_recvPlan.mpr ⟨r, hr, stream, addr, hf, hd, rfl⟩), rfl, by simp⟩

theorem send_of_mem_recvPlan (h : e ∈ p.recvPlan t reports) : e.send = [] := by
  obtain ⟨_, _, _, _, _, _, rfl⟩ := mem_recvPlan.mp h
  rfl

theorem sends_plan : sends (p.plan t) addr =
    if p.hasLocalSendReport then sends (t.entries.filterMap p.sendEntry) addr else [] := by
  have hrecv : sends (p.recvPlan t p.localRecvReports.items) addr = [] := by
    refine flatMap_eq_nil_iff.mpr fun e he => ?_
    exact send_of_mem_recvPlan (mem_filter.mp he).1
  have hconf : sends p.configured addr = [] := by
    unfold configured
    split
    · exact Entry.sends_bare (l := []) addr
    · rfl
  have happend : ∀ l l' : List Entry, sends (l ++ l') addr = sends l addr ++ sends l' addr := by
    intro l l'
    unfold sends
    rw [filter_append, flatMap_append]
  unfold plan sendPlan
  rw [happend, hrecv, append_nil]
  split
  · rw [happend, hconf, nil_append]
  · rfl

theorem recvs_plan : recvs (p.plan t) addr = recvs (p.localRecvReports.items.filterMap (p.recvEntry t)) addr := by
  have hsend : recvs (p.sendPlan t) addr = [] := by
    refine flatMap_eq_nil_iff.mpr fun e he => ?_
    exact recv_of_mem_sendPlan (mem_filter.mp he).1
  unfold plan
  unfold recvs at hsend ⊢
  rw [filter_append, flatMap_append, hsend, nil_append]
  rfl

theorem count_sends_plan (hf : t.find ssrc = some stream) : (sends (p.plan t) addr).count ⟨ssrc, stream.id⟩ =
      if p.hasLocalSendReport = true ∧ p.sendDestination stream = some addr then 1 else 0 := by
  have hone : (t.entries.map Prod.fst).count ssrc = 1 := count_eq_one_of_mem t.nodup
      (mem_map.mpr ⟨_, find_eq_some.mp hf, rfl⟩)
  have hcount : (sends (t.entries.filterMap p.sendEntry) addr).count ⟨ssrc, stream.id⟩ =
      if p.sendDestination stream = some addr then 1 else 0 := by
    rw [← hone]
    refine Entry.count_flatMap ?_
    rintro ⟨k, st⟩ hk
    by_cases hkey : k = ssrc
    · subst hkey
      rw [find_eq_some.mpr hk] at hf
      cases hf
      unfold sendEntry
      cases hd : p.sendDestination stream with
      | none => simp
      | some d => by_cases h : d = addr <;> simp [h]
    · unfold sendEntry
      cases hd : p.sendDestination st with
      | none => simp [hkey]
      | some d => by_cases h : d = addr <;> simp [h, hkey]
  rw [sends_plan]
  cases p.hasLocalSendReport with
  | true => simpa using hcount
  | false => simp

theorem count_recvs_plan (hf : t.find ssrc = some stream) : (recvs (p.plan t) addr).count ⟨ssrc, stream.id⟩ =
      if p.recvDestination stream = some addr then
        (p.localRecvReports.items.map RecvReport.senderSourceId).count ssrc
      else 0 := by
  rw [recvs_plan]
  refine Entry.count_flatMap ?_
  intro r _
  unfold recvEntry
  by_cases hkey : r.senderSourceId = ssrc
  · rw [hkey, hf, bind_some]
    cases hd : p.recvDestination stream with
    | none => simp
    | some d => by_cases h : d = addr <;> simp [h]
  · cases hf' : t.find r.senderSourceId with
    | none => simp [hkey]
    | some st =>
      rw [bind_some]
      cases hd : p.recvDestination st with
      | none => simp [hkey]
      | some d => by_cases h : d = addr <;> simp [h, hkey]

theorem Holds.of_built {time : Int} {built : LruTable SocketAddr Address} (hb : Built time l built)
    (haddresses : p.addresses = built.trim fun address => address.lastRebuild == time)
    (hindex : p.addressIndex = p.addresses.entries.map Prod.fst) : p.Holds l := by
  refine ⟨hindex, ?_⟩
  intro addr
  rw [haddresses, find_trim hb.front]
  by_cases hm : addr ∈ l.map Entry.addr
  · obtain ⟨hf, ht⟩ := (hb.used addr _).mpr ⟨hm, rfl⟩
    rw [if_pos hm, hf, filter_some, if_pos (by simp)]
    rfl
  · rw [if_neg hm]
    cases hf : built.find addr with
    | none => rfl
    | some address =>
      have ht : ¬ (address.lastRebuild == time) = true := by
        intro ht
        exact hm (hb.mem_iff.mpr ⟨address, hf, by simpa using ht⟩)
      rw [filter_some, if_neg ht]
      rfl

theorem Holds.recvStreamIndex (h : p.Holds l) {address : Address}
    (hf : p.addresses.find addr = some address) : address.recvStreamIndex = recvs l addr := by
  have hl := h.lists addr
  rw [hf, map_some] at hl
  split at hl
  · exact congrArg Prod.snd (some.inj hl)
  · cases hl

end IndexPart

namespace Reporter

variable {π : Type} {s s' : Reporter π} {code : StatusCode}

theorem rebuildIndex_cases (h : s.rebuildIndex = .ok (code, s')) : s.needRebuildIndex = true ∧
    ((code = .noMem ∧ s.clearIndex.indexSendStreams = (false, s')) ∨
     (code = .noMem ∧ ∃ s1, s.clearIndex.indexSendStreams = (true, s1) ∧
        forEach indexRecvStream s1.localRecvReports.items.zipIdx s1 = (false, s')) ∨
     (∃ s1 s2 arena, s.clearIndex.indexSendStreams = (true, s1) ∧
        forEach indexRecvStream s1.localRecvReports.items.zipIdx s1 = (true, s2) ∧
        ((code = .noMem ∧ s' = { s2.removeUnusedAddresses with arena }) ∨
          (code = .ok ∧ s' = { s2.removeUnusedAddresses with arena }.fillIndex)))) := by
  unfold rebuildIndex at h
  cases hneed : s.needRebuildIndex with
  | false => rw [hneed] at h; cases h
  | true =>
    simp only [hneed, Bool.not_true, Bool.false_eq_true, if_false] at h
    refine ⟨rfl, ?_⟩
    cases hsend : s.clearIndex.indexSendStreams with
    | mk done1 s1 =>
      rw [hsend] at h
      cases done1 with
      | false => cases h; exact .inl ⟨rfl, rfl⟩
      | true =>
        cases hrecv : forEach indexRecvStream s1.localRecvReports.items.zipIdx s1 with
        | mk done2 s2 =>
          simp only [hrecv] at h
          cases done2 with
          | false => cases h; exact .inr (.inl ⟨rfl, s1, rfl, hrecv⟩)
          | true =>
            refine .inr (.inr ⟨s1, s2, s2.removeUnusedAddresses.arena.tail, rfl, hrecv, ?_⟩)
            simp only [alloc_eq] at h
            cases ha : s2.removeUnusedAddresses.arena.headD true with
            | false => rw [ha] at h; cases h; exact .inl ⟨rfl, rfl⟩
            | true => rw [ha] at h; cases h; exact .inr ⟨rfl, rfl⟩

/-- A rebuild at a time that no address has yet makes the index that the plan says, and points the
listed streams to reports of their own. -/
theorem rebuildIndex_ok
    (htime : ∀ addr address, s.addresses.find addr = some address → address.lastRebuild ≠ s.reportTime)
    (h : s.rebuildIndex = .ok (.ok, s')) :
    s'.indexPart.Holds (s'.indexPart.plan s'.streams) ∧ s'.indexPart.RecvLinked s'.streams ∧
      ∀ r ∈ s'.localRecvReports.items, ∃ stream, s'.streams.find r.senderSourceId = some stream := by
  obtain ⟨hneed, h⟩ := rebuildIndex_cases h
  rcases h with ⟨hc, _⟩ | ⟨hc, _⟩ | ⟨s1, s2, arena, hsend, hrecv, ⟨hc, _⟩ | ⟨_, rfl⟩⟩
  · cases hc
  · cases hc
  · cases hc
  obtain ⟨hframe, hb1⟩ := indexSendStreams_ok (s := s.clearIndex) (Built.of_none htime) hsend
  have hneed1 : s1.needRebuildIndex = true := by
    obtain ⟨_, _, rfl⟩ := hframe
    exact hneed
  have hb1 : Built s1.reportTime (s1.indexPart.sendPlan s1.streams) s1.addresses := by
    obtain ⟨_, _, rfl⟩ := hframe
    exact hb1
  have hl := indexRecvStreams_ok hneed1 hb1 hrecv
  have hitems : s1.localRecvReports.items.zipIdx.map Prod.fst = s1.localRecvReports.items := by simp
  have hplan : { s2.removeUnusedAddresses with arena }.fillIndex.indexPart.plan s2.streams =
      s1.indexPart.sendPlan s1.streams ++
        s1.indexPart.recvPlan s2.streams (s1.localRecvReports.items.zipIdx.map Prod.fst) := by
    rw [hitems, ← sendPlan_grown (p := s1.indexPart) hl.grown]
    obtain ⟨_, _, _, _, _, _, rfl⟩ := hl.frame
    rfl
  have hholds : { s2.removeUnusedAddresses with arena }.fillIndex.indexPart.Holds
      ({ s2.removeUnusedAddresses with arena }.fillIndex.indexPart.plan s2.streams) := by
    rw [hplan]
    refine .of_built hl.built ?_ rfl
    obtain ⟨_, _, _, _, _, _, rfl⟩ := hl.frame
    rfl
  have hreports : s2.localRecvReports = s1.localRecvReports := by
    obtain ⟨_, _, _, _, _, _, rfl⟩ := hl.frame
    rfl
  refine ⟨hholds, ?_, ?_⟩
  · intro addr address hf ptr hptr
    rw [hholds.recvStreamIndex hf] at hptr
    obtain ⟨r, hr, stream, hst, hd, rfl⟩ := mem_recvs_plan.mp hptr
    have hr : r ∈ s1.localRecvReports.items := hreports ▸ hr
    rw [← hitems] at hr
    obtain ⟨e, he, rfl⟩ := mem_map.mp hr
    obtain ⟨stream', hst', hlink⟩ := hl.linked e he
    rw [hst] at hst'
    cases hst'
    have hd : s1.indexPart.recvDestination stream ≠ none := by
      obtain ⟨_, _, _, _, _, _, rfl⟩ := hl.frame
      rw [show s1.indexPart.recvDestination stream = some addr from hd]
      simp
    obtain ⟨e', he', hssrc, hptr'⟩ := hlink hd
    refine ⟨stream, e'.2, e'.1, hst, rfl, ?_, ?_, hssrc⟩
    · show stream.localRecvReport = some ⟨s2.localRecvReports.block, e'.2⟩
      rw [hreports]
      exact hptr'
    · show s2.localRecvReports.items[e'.2]? = some e'.1
      rw [hreports]
      exact mem_zipIdx_iff_getElem?.mp he'
  · intro r hr
    refine hl.known r ?_
    rw [hitems, ← hreports]
    exact hr

/-! ## What a rebuild leaves alone, also when it fails -/

structure Rebuilding (s s' : Reporter π) : Prop where
  frame : s.SameButIndex s'
  grown : Grown s.streams s'.streams

theorem Rebuilding.refl (h : s.needRebuildIndex = true) : s.Rebuilding s := by
  refine ⟨⟨s.arena, s.addresses, s.addressIndex, s.streams, s.nextStream, s.reportError, ?_⟩, .refl _⟩
  cases s
  cases h
  rfl

theorem Rebuilding.addresses {x : Reporter π} (h : s.Rebuilding x) (arena : List Bool)
    (addresses : LruTable SocketAddr Address) (addressIndex : List SocketAddr) (err : StatusCode) :
    s.Rebuilding { x with arena, addresses, addressIndex := addressIndex
                          reportError := err } := by
  obtain ⟨⟨_, _, _, _, _, _, rfl⟩, hg⟩ := h
  exact ⟨⟨_, _, _, _, _, _, rfl⟩, hg⟩

section
variable {x : Reporter π} (h : s.Rebuilding x)
include h

theorem Rebuilding.useAddress (addr : SocketAddr) : s.Rebuilding (x.useAddress addr).2 := by
  unfold Reporter.useAddress Reporter.findAddress
  cases hf : x.addresses.find addr with
  | some address =>
    simp only [rebuildAddress, hf]
    split
    · exact h
    · exact h.addresses _ _ _ _
  | none =>
    simp only [alloc_eq]
    cases x.arena.headD true with
    | false => exact h.addresses _ _ _ _
    | true =>
      simp only [rebuildAddress, find_insert hf, if_true]
      exact h.addresses _ _ _ _

theorem Rebuilding.pushStream (addr : SocketAddr) (f : Address → Address) : s.Rebuilding (x.pushStream addr f).2 := by
  unfold Reporter.pushStream
  simp only [alloc_eq]
  cases x.arena.headD true with
  | false | true => exact h.addresses _ _ _ _

theorem Rebuilding.findStream (ssrc : UInt32) : s.Rebuilding (x.findStream ssrc .autoCreate).2 := by
  rcases findStream_cases x ssrc .autoCreate with ⟨_, _, he⟩ | ⟨_, hm, _⟩ | ⟨_, _, he⟩ | ⟨hn, _, he⟩
  · rw [he]
    exact h
  · cases hm
  · rw [he]
    exact h.addresses _ _ _ _
  · rw [he]
    have hgrow : Grown x.streams (x.streams.insert ssrc x.freshStream) := insert Relinked.refl hn ⟨_, _, _, rfl⟩
    obtain ⟨⟨_, _, _, _, _, _, rfl⟩, hg⟩ := h
    exact ⟨⟨_, _, _, _, _, _, rfl⟩, hg.trans hgrow⟩

theorem Rebuilding.indexSendStream (entry : UInt32 × Stream) : s.Rebuilding (x.indexSendStream entry).2 := by
  unfold Reporter.indexSendStream
  dsimp only
  split
  · exact h
  · split
    · exact h
    · have hu := h.useAddress (x.destination entry.2)
      cases he : x.useAddress (x.destination entry.2) with
      | mk done x1 =>
        rw [he] at hu
        cases done with
        | false => exact hu
        | true => exact hu.pushStream _ _

theorem Rebuilding.indexSendStreams : s.Rebuilding x.indexSendStreams.2 := by
  have hloop : ∀ entries {y : Reporter π}, s.Rebuilding y →
      s.Rebuilding (forEach Reporter.indexSendStream entries y).2 := fun entries _ hy =>
    forEach_frame (fun entry _ hz => hz.indexSendStream entry) entries hy
  unfold Reporter.indexSendStreams
  split
  · exact h
  · split
    · exact hloop _ h
    · have hu := h.useAddress x.participantReportAddr
      cases he : x.useAddress x.participantReportAddr with
      | mk done x1 =>
        rw [he] at hu
        cases done with
        | false => exact hu
        | true => exact hloop _ hu

theorem Rebuilding.indexRecvStream (entry : RecvReport × Nat) : s.Rebuilding (x.indexRecvStream entry).2 := by
  unfold Reporter.indexRecvStream
  dsimp only
  have hf := h.findStream entry.1.senderSourceId
  cases he : x.findStream entry.1.senderSourceId .autoCreate with
  | mk found x1 =>
    rw [he] at hf
    cases found with
    | none => exact hf
    | some stream =>
      dsimp only
      split
      · exact hf
      · split
        · exact hf
        · have hu := hf.useAddress (x1.destination stream)
          cases he : x1.useAddress (x1.destination stream) with
          | mk done x2 =>
            rw [he] at hu
            cases done with
            | false => exact hu
            | true =>
              dsimp only
              have hp := hu.pushStream (x2.destination stream) (listRecv ⟨entry.1.senderSourceId, stream.id⟩)
              cases he : x2.pushStream (x2.destination stream) (listRecv ⟨entry.1.senderSourceId, stream.id⟩) with
              | mk done x3 =>
                rw [he] at hp
                cases done with
                | false => exact hp
                | true =>
                  have hgrow : ∀ f, (∀ a, Relinked a (f a)) → Grown x3.streams
                      (x3.streams.modify entry.1.senderSourceId f) :=
                    fun f hf => modify Relinked.refl fun a _ => hf a
                  obtain ⟨⟨_, _, _, _, _, _, hx3⟩, hg⟩ := hp
                  have hx3 : x3 = _ := hx3
                  refine ⟨?_, hg.trans (hgrow _ fun a => ⟨_, rfl⟩)⟩
                  rw [hx3]
                  exact ⟨_, _, _, _, _, _, rfl⟩

end

theorem rebuildIndex_frame (h : s.rebuildIndex = .ok (code, s')) : s.Rebuilding s' := by
  obtain ⟨hneed, h⟩ := rebuildIndex_cases h
  have h0 : s.Rebuilding s.clearIndex := (Rebuilding.refl hneed).addresses _ _ _ _
  have h1 := h0.indexSendStreams
  have hloop : ∀ y : Reporter π, s.Rebuilding y →
      s.Rebuilding (forEach indexRecvStream y.localRecvReports.items.zipIdx y).2 :=
    fun _ hy => forEach_frame (fun entry _ hz => hz.indexRecvStream entry) _ hy
  rcases h with ⟨_, he⟩ | ⟨_, s1, he, hr⟩ | ⟨s1, s2, arena, he, hr, h⟩
  · rw [he] at h1
    exact h1
  · rw [he] at h1
    have h2 := hloop s1 h1
    rw [hr] at h2
    exact h2
  · rw [he] at h1
    have h2 := hloop s1 h1
    rw [hr] at h2
    rcases h with ⟨_, rfl⟩ | ⟨_, rfl⟩
    · exact h2.addresses _ _ _ _
    · exact h2.addresses _ _ _ _

/-! ## Queries -/

section
variable {P : Participant π}

def CanResize (s : Reporter π) (count : Nat) : Prop := count ≤ s.localRecvReports.capacity ∨ s.arena.headD true = true

/-- `query_streams_` sees a reason to rebuild the index: it was asked for, the number of receiving
streams is another one, or one of them is not known. -/
def Noticed (P : Participant π) (s : Reporter π) : Prop := s.needRebuildIndex = true ∨
  (P.numRecvStreams s.participant ≠ s.localRecvReports.items.length ∧
    s.CanResize (P.numRecvStreams s.participant)) ∨
  (P.numRecvStreams s.participant = s.localRecvReports.items.length ∧
    ∃ r ∈ s.writtenReports P, s.streams.find r.senderSourceId = none)

theorem querySendStream_ok (h : s.querySendStream P = .ok s') :
    ∃ report, s' = { s with hasLocalSendReport := P.hasSendStream s.participant
                            localSendReport := report } := by
  unfold querySendStream at h
  cases hs : P.hasSendStream s.participant with
  | true =>
    simp only [hs, if_true] at h
    obtain ⟨_, _, h⟩ := bind_eq_ok.mp h
    cases h
    exact ⟨_, rfl⟩
  | false =>
    simp only [hs, Bool.false_eq_true, if_false] at h
    cases h
    exact ⟨_, rfl⟩

theorem resizeRecvReports_cases (s : Reporter π) (count : Nat) :
    (s.localRecvReports.items.length = count ∧ s.resizeRecvReports count = (true, s)) ∨
    (s.localRecvReports.items.length ≠ count ∧ s.CanResize count ∧ ∃ arena reports,
      s.resizeRecvReports count = (true, { s with arena, localRecvReports := reports
                                                  needRebuildIndex := true })) ∨
    (s.localRecvReports.items.length ≠ count ∧ ¬ s.CanResize count ∧
      s.resizeRecvReports count = (false, { s with arena := s.arena.tail })) := by
  unfold resizeRecvReports
  by_cases hc : s.localRecvReports.items.length = count
  · exact .inl ⟨hc, if_pos hc⟩
  · by_cases hcap : count ≤ s.localRecvReports.capacity
    · simp only [hc, hcap, if_false, if_true]
      exact .inr (.inl ⟨hc, .inl hcap, s.arena, _, rfl⟩)
    · simp only [hc, hcap, if_false, alloc_eq]
      cases ha : s.arena.headD true with
      | true => exact .inr (.inl ⟨hc, .inr ha, _, _, rfl⟩)
      | false =>
        refine .inr (.inr ⟨hc, ?_, rfl⟩)
        rintro (h | h)
        · exact hcap h
        · rw [ha] at h
          cases h

theorem checkRecvReport_ok {report : RecvReport} (h : s.checkRecvReport report = .ok s') :
    s' = { s with needRebuildIndex := s.needRebuildIndex || (s.streams.find report.senderSourceId).isNone } := by
  unfold checkRecvReport at h
  obtain ⟨_, _, h⟩ := bind_eq_ok.mp h
  have hfind : (s.findStream report.senderSourceId .noAutoCreate).1 = s.streams.find report.senderSourceId := by
    rcases findStream_cases s report.senderSourceId .noAutoCreate with
      ⟨_, hf, he⟩ | ⟨hf, _, he⟩ | ⟨_, hm, _⟩ | ⟨_, hm, _⟩
    · rw [he, hf]
    · rw [he, hf]
    · cases hm
    · cases hm
  rw [hfind] at h
  cases hn : s.needRebuildIndex with
  | true =>
    simp only [hn, Bool.not_true, Bool.false_and, Bool.false_eq_true, if_false] at h
    cases h
    cases s
    cases hn
    rfl
  | false =>
    cases hu : (s.streams.find report.senderSourceId).isNone with
    | true =>
      simp only [hn, hu, Bool.not_false, Bool.and_self, if_true] at h
      cases h
      rfl
    | false =>
      simp only [hu, Bool.and_false, Bool.false_eq_true, if_false] at h
      cases h
      cases s
      cases hn
      rfl

theorem checkRecvReports_ok {reports : List RecvReport} : ∀ {s s' : Reporter π},
    reports.foldlM checkRecvReport s = .ok s' →
    s' = { s with
      needRebuildIndex := s.needRebuildIndex || reports.any (fun r => (s.streams.find r.senderSourceId).isNone) } := by
  induction reports with
  | nil =>
    intro s s' h
    cases h
    cases s
    simp
  | cons report reports ih =>
    intro s s' h
    rw [foldlM_cons] at h
    obtain ⟨s1, h1, h⟩ := bind_eq_ok.mp h
    rw [ih h, checkRecvReport_ok h1]
    simp [Bool.or_assoc]

theorem queryRecvStreams_ok (h : s.queryRecvStreams P = .ok s') : s' = { s with
      localRecvReports := { s.localRecvReports with items := s.writtenReports P }
      needRebuildIndex := s.needRebuildIndex ||
        (s.writtenReports P).any (fun r => (s.streams.find r.senderSourceId).isNone) } := by
  unfold queryRecvStreams at h
  by_cases hl : s.localRecvReports.items.length = 0
  · rw [if_pos hl] at h
    cases h
    have hnil := length_eq_zero_iff.mp hl
    have hw : s.writtenReports P = [] := by
      unfold writtenReports
      rw [hnil]
      simp
    have hself : ({ s.localRecvReports with items := [] } : ReportArray) = s.localRecvReports := by
      rw [← hnil]
    rw [hw, hself, any_nil, Bool.or_false]
  · rw [if_neg hl] at h
    exact checkRecvReports_ok h

/-- `query_streams_` changed nothing but the local reports, and a new index is needed. -/
def Queried (P : Participant π) (s s' : Reporter π) : Prop := ∃ arena report reports, s' = { s with
    arena := arena
    hasLocalSendReport := P.hasSendStream s.participant
    localSendReport := report
    localRecvReports := reports
    needRebuildIndex := true }

variable {code : StatusCode}

theorem rebuildIfNeeded_cases (h : s.rebuildIfNeeded = .ok (code, s')) :
    (s.needRebuildIndex = false ∧ code = .ok ∧ s' = s) ∨
    (s.needRebuildIndex = true ∧ ∃ code1 s1, s.rebuildIndex = .ok (code1, s1) ∧
      ((code1 ≠ .ok ∧ code = code1 ∧ s' = s1) ∨
        (code1 = .ok ∧ code = .ok ∧ s' = { s1 with needRebuildIndex := false }))) := by
  unfold rebuildIfNeeded at h
  cases hneed : s.needRebuildIndex with
  | false =>
    rw [hneed] at h
    cases h
    exact .inl ⟨rfl, rfl, rfl⟩
  | true =>
    rw [if_neg (by simp [hneed])] at h
    obtain ⟨⟨code1, s1⟩, hr, h⟩ := bind_eq_ok.mp h
    refine .inr ⟨rfl, code1, s1, hr, ?_⟩
    dsimp only at h
    by_cases hc : code1 = .ok
    · rw [if_neg (not_not.mpr hc)] at h
      cases h
      exact .inr ⟨hc, rfl, rfl⟩
    · rw [if_pos hc] at h
      cases h
      exact .inl ⟨hc, rfl, rfl⟩

theorem refreshStreams_cases (h : s.refreshStreams P = .ok (code, s')) :
    (code = .noMem ∧ P.numRecvStreams s.participant ≠ s.localRecvReports.items.length ∧
      ¬ s.CanResize (P.numRecvStreams s.participant) ∧ ∃ arena report, s' = { s with
        arena := arena
        hasLocalSendReport := P.hasSendStream s.participant
        localSendReport := report }) ∨
    (code = .ok ∧ ¬ Noticed P s ∧
      P.numRecvStreams s.participant = s.localRecvReports.items.length ∧ ∃ report, s' = { s with
        hasLocalSendReport := P.hasSendStream s.participant
        localSendReport := report
        localRecvReports := { s.localRecvReports with items := s.writtenReports P } }) ∨
    (Noticed P s ∧ ∃ s1 code2 s2, Queried P s s1 ∧ s1.rebuildIndex = .ok (code2, s2) ∧
      ((code2 ≠ .ok ∧ code = code2 ∧ s' = s2) ∨
        (code2 = .ok ∧ code = .ok ∧ s' = { s2 with needRebuildIndex := false }))) := by
  unfold refreshStreams at h
  obtain ⟨⟨code1, s1⟩, hq, h⟩ := bind_eq_ok.mp h
  unfold queryStreams at hq
  obtain ⟨s0, hs, hq⟩ := bind_eq_ok.mp hq
  obtain ⟨report, rfl⟩ := querySendStream_ok hs
  rcases resizeRecvReports_cases { s with
      hasLocalSendReport := P.hasSendStream s.participant, localSendReport := report }
      (P.numRecvStreams s.participant) with
    ⟨hlen, he⟩ | ⟨hlen, hcan, arena, reports, he⟩ | ⟨hlen, hcan, he⟩
  · rw [he] at hq
    obtain ⟨s2, hr, hq⟩ := bind_eq_ok.mp hq
    cases hq
    have hr := queryRecvStreams_ok hr
    have hw : writtenReports P { s with
        hasLocalSendReport := P.hasSendStream s.participant, localSendReport := report } =
        s.writtenReports P := rfl
    simp only [hw] at hr
    have hlen : s.localRecvReports.items.length = P.numRecvStreams s.participant := hlen
    rcases rebuildIfNeeded_cases h with ⟨hneed, rfl, rfl⟩ | ⟨hneed, hrest⟩
    · rw [hr] at hneed
      obtain ⟨hn, hany⟩ := Bool.or_eq_false_iff.mp hneed
      refine .inr (.inl ⟨rfl, ?_, hlen.symm, report, ?_⟩)
      · rintro (hn' | ⟨hne, _⟩ | ⟨_, r, hmem, hnone⟩)
        · rw [hn] at hn'
          cases hn'
        · exact hne hlen.symm
        · have := any_eq_false.mp hany r hmem
          rw [hnone] at this
          exact this rfl
      · rw [hr, hany, Bool.or_false]
    · refine .inr (.inr ⟨?_, s1, ?_⟩)
      · rw [hr] at hneed
        rcases Bool.or_eq_true_iff.mp hneed with hn | hn
        · exact .inl hn
        · obtain ⟨r, hr, hnone⟩ := any_eq_true.mp hn
          exact .inr (.inr ⟨hlen.symm, r, hr, isNone_iff_eq_none.mp hnone⟩)
      · obtain ⟨code2, s2, hrest⟩ := hrest
        refine ⟨code2, s2, ⟨s.arena, report, { s.localRecvReports with items := s.writtenReports P }, ?_⟩, hrest⟩
        rw [hr] at hneed ⊢
        dsimp only at hneed
        rw [hneed]
  · rw [he] at hq
    obtain ⟨s2, hr, hq⟩ := bind_eq_ok.mp hq
    cases hq
    have hr := queryRecvStreams_ok hr
    have hneed : s1.needRebuildIndex = true := by
      rw [hr]
      rfl
    rcases rebuildIfNeeded_cases h with ⟨hneed', _, _⟩ | ⟨_, code2, s2, hrest⟩
    · rw [hneed] at hneed'
      cases hneed'
    · refine .inr (.inr ⟨.inr (.inl ⟨fun he => hlen he.symm, hcan⟩), s1, code2, s2, ?_, hrest⟩)
      rw [hr]
      exact ⟨_, _, _, rfl⟩
  · rw [he] at hq
    cases hq
    cases h
    exact .inl ⟨rfl, fun he => hlen he.symm, hcan, _, _, rfl⟩

theorem beginReport_cases {state : ReportState} {reportTime : Int}
    (h : s.beginReport P state reportTime = .ok (code, s')) :
    s.reportState = .idle ∧ 0 < reportTime ∧ ∃ s1, (s.enter state reportTime).refreshStreams P = .ok (code, s1) ∧
      ((code = .ok ∧ s' = s1) ∨ (code ≠ .ok ∧ s' = { s1 with reportState := .idle })) := by
  unfold beginReport at h
  obtain ⟨_, hst, h⟩ := bind_eq_ok.mp h
  by_cases ht : reportTime ≤ 0
  · rw [if_pos ht] at h
    cases h
  · rw [if_neg ht] at h
    obtain ⟨⟨code1, s1⟩, hr, h⟩ := bind_eq_ok.mp h
    dsimp only at h
    refine ⟨requireState_ok hst, by omega, s1, ?_⟩
    by_cases hc : code1 = .ok
    · rw [if_neg (not_not.mpr hc)] at h
      cases h
      rw [hc] at hr
      exact ⟨hr, .inl ⟨rfl, rfl⟩⟩
    · rw [if_pos hc] at h
      cases h
      exact ⟨hr, .inr ⟨hc, rfl⟩⟩

end

end Reporter

end Roc.Rtcp
