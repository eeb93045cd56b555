import RocToolkit.Lib.Loop
import RocToolkit.Pipeline.RouteTable

/-!
# RocToolkit.Pipeline.RouteInvariant

Runs of the session router. In every state of a run the maps describe the routes of the list, every
route has an SSRC, and its main SSRC is one of them, unless a call moves the session of a route that
has none: `move_route_session_` then enters the empty address and the null session into the maps.
-/

namespace Roc.Pipeline

open List

open Function (update)
open Roc.Core (NodeMap Hashmap hashsumInt32)

open Rtcp (CString Cname maxTextLen)

variable {σ : Type}

/-! ## Sound tables -/

namespace Routes

variable {t : Routes σ} {n n' id : Nat} {route : Route σ} {sourceId : UInt32} {cname : Cname}

section
variable (h : t.Sound n)
include h

theorem Sound.write (hn : n ≤ n') (hid : id < n') (hgood : route.Good) : Sound (update t id (some route)) n' := by
  refine ⟨fun i route' hf => ?_, fun i hi => ?_⟩
  · rw [Function.update_apply] at hf
    split at hf
    · cases hf
      exact hgood
    · exact h.good i route' hf
  · rw [Function.update_of_ne (by omega)]
    exact h.fresh i (by omega)

theorem Sound.lt (hf : t id = some route) : id < n := by
  by_contra hid
  rw [h.fresh id (by omega)] at hf
  cases hf

theorem Sound.erase (id : Nat) : Sound (update t id none) n := by
  refine ⟨fun i route hf => ?_, fun i hi => ?_⟩
  · rw [Function.update_apply] at hf
    split at hf
    · cases hf
    · exact h.good i route hf
  · rw [Function.update_apply]
    split
    · rfl
    · exact h.fresh i hi

theorem Sound.put (hid : id < n) (hnodup : route.sources.Nodup)
    (hmain : ∀ sourceId, route.mainSourceId = some sourceId → sourceId ∈ route.sources) : Sound (t.put id route) n := by
  unfold Routes.put
  split
  · exact h.erase id
  · next hne => exact h.write (Nat.le_refl n) hid ⟨hne, hnodup, hmain⟩

end

theorem Target.good (ht : Target t n sourceId cname id route n') (h : t.Sound n)
    (hs : ∀ i route, t i = some route → route.cname.text = cname.text → sourceId ∉ route.sources) :
    route.Good ∧ n ≤ n' ∧ id < n' ∧ sourceId ∈ route.sources := by
  cases ht with
  | new =>
    refine ⟨⟨cons_ne_nil _ _, nodup_singleton _, ?_⟩, by omega, by omega, mem_cons_self⟩
    intro main hmain
    cases hmain
    exact mem_cons_self
  | @known _ route0 hf hc =>
    have hgood := h.good id route0 hf
    refine ⟨⟨by simp, ?_, ?_⟩, Nat.le_refl n, h.lt hf, mem_append_right _ mem_cons_self⟩
    · refine hgood.nodup.append (nodup_singleton _) ?_
      intro x hx hx'
      rw [mem_singleton.mp hx'] at hx
      exact hs id route0 hf hc hx
    · intro main hmain
      exact mem_append_left _ (hgood.main main hmain)

theorem Route.Good.erase {main : Option UInt32} (hgood : route.Good)
    (hmain : ∀ x, main = some x → route.mainSourceId = some x ∧ x ≠ sourceId) :
    ∀ x, main = some x → x ∈ route.sources.erase sourceId := by
  intro x hx
  obtain ⟨hx, hne⟩ := hmain x hx
  exact (mem_erase_of_ne hne).mpr (hgood.main x hx)

variable {t' : Routes σ}

theorem Unlinked.sound (hu : Unlinked t sourceId t') (h : t.Sound n) : t'.Sound n := by
  cases hu with
  | none => exact h
  | @some id route hf hs =>
    have hgood := h.good id route hf
    refine h.put (h.lt hf) (hgood.nodup.erase _) ?_
    refine Route.Good.erase hgood fun x hx => ?_
    unfold Route.unlink at hx
    dsimp only at hx
    split at hx
    · cases hx
    · next hne => exact ⟨hx, fun he => hne (he ▸ hx)⟩

theorem Linked.sound (hl : Linked t n sourceId cname t' n') (h : t.Sound n)
    (hunique : ∀ i j route route', t i = some route → t j = some route' → sourceId ∈ route.sources →
      sourceId ∈ route'.sources → i = j) : t'.Sound n' := by
  have hother : ∀ {oldId oldRoute}, t oldId = some oldRoute → sourceId ∈ oldRoute.sources →
      oldRoute.cname.text ≠ cname.text → ∀ i route, t i = some route →
      route.cname.text = cname.text → sourceId ∉ route.sources := by
    intro oldId oldRoute hf hs hc i route hf' hc' hs'
    cases hunique _ _ _ _ hf hf' hs hs'
    rw [hf] at hf'
    cases hf'
    exact hc hc'
  cases hl with
  | same => exact h
  | name hf hs =>
    have hgood := h.good _ _ hf
    exact h.write (Nat.le_refl n) (h.lt hf) ⟨hgood.nonempty, hgood.nodup, hgood.main⟩
  | place hs ht =>
    obtain ⟨hgood, hn, hid, _⟩ := ht.good h fun i route hf _ => hs i route hf
    exact h.write hn hid hgood
  | moveOther hf hs hc ht hmain =>
    obtain ⟨hgood, hn, hid, _⟩ := ht.good h (hother hf hs hc)
    have hold := h.good _ _ hf
    refine (h.write hn hid hgood).put (Nat.lt_of_lt_of_le (h.lt hf) hn) (hold.nodup.erase _) ?_
    exact Route.Good.erase hold fun x hx => ⟨hx, fun he => hmain (he ▸ hx)⟩
  | moveMain hf hs hc ht hmain =>
    obtain ⟨hgood, hn, hid, hsnew⟩ := ht.good h (hother hf hs hc)
    have hold := h.good _ _ hf
    have hwrite : ∀ route : Route σ, route.Good → Sound (update t _ (some route)) n' := fun _ hg =>
      h.write hn hid hg
    refine Sound.put (hwrite _ ⟨hgood.nonempty, hgood.nodup, ?_⟩) (Nat.lt_of_lt_of_le (h.lt hf) hn) ?_ ?_
    · intro x hx
      cases hx
      exact hsnew
    · exact hold.nodup.erase _
    · intro x hx
      cases hx

variable {session : σ}

theorem Added.sound {addr : SocketAddr} {code : StatusCode}
    (ha : Added t n session sourceId addr code t' n') (h : t.Sound n) : t'.Sound n' := by
  cases ha with
  | conflict => exact h
  | attach _ _ hf hs =>
    have hgood := h.good _ _ hf
    exact h.write (Nat.le_refl n) (h.lt hf) ⟨hgood.nonempty, hgood.nodup, hgood.main⟩
  | create _ _ hu =>
    refine (hu.sound h).write (Nat.le_succ n) (Nat.lt_succ_self n) ⟨cons_ne_nil _ _, nodup_singleton _, ?_⟩
    intro x hx
    cases hx
    exact mem_cons_self

theorem Removed.sound (hr : Removed t session t') (h : t.Sound n) : t'.Sound n := by
  cases hr with
  | none => exact h
  | some => exact h.erase _

end Routes

/-! ## Runs -/

namespace SessionRouter

inductive Call (σ : Type) where
  | addSession (session : σ) (sourceId : UInt32) (sourceAddr : SocketAddr)
  | removeSession (session : σ)
  | linkSource (sourceId : UInt32) (cname : Cname) (hne : cname.text.length ≠ 0)
  | unlinkSource (sourceId : UInt32)

variable [DecidableEq σ]

def call (r : SessionRouter σ) : Call σ → Except Fault (StatusCode × SessionRouter σ)
  | .addSession session sourceId sourceAddr => r.addSession session sourceId sourceAddr
  | .removeSession session => do return (.ok, ← r.removeSession session)
  | .linkSource sourceId cname _ => r.linkSource sourceId (some cname.text)
  | .unlinkSource sourceId => do return (.ok, ← r.unlinkSource sourceId)

def CallStep (r : SessionRouter σ) (c : Call σ) (r' : SessionRouter σ) : Prop := ∃ code, r.call c = .ok (code, r')

def MovesSession (r : SessionRouter σ) : Call σ → Prop
  | .linkSource sourceId cname _ => Routes.MovesSession r.routes.get sourceId cname
  | _ => True

structure Consistent (r : SessionRouter σ) : Prop where
  maps : r.Represents r.routes.get r.nextRoute
  sound : Routes.Sound r.routes.get r.nextRoute

variable {r r' : SessionRouter σ}

theorem Consistent.of_represents {t : Routes σ} {n : Nat} (h : r.Represents t n) (hs : t.Sound n) : r.Consistent := by
  obtain ⟨rfl, rfl, _⟩ := id h
  exact ⟨h, hs⟩

theorem Consistent.empty : ({} : SessionRouter σ).Consistent := by
  refine ⟨⟨rfl, rfl, rfl, .empty, .empty, .empty, .empty⟩, ?_, fun _ _ => rfl⟩
  intro id route hf
  cases hf

theorem Consistent.call (h : r.Consistent) {c : Call σ} (hc : r.MovesSession c) :
    ∃ code r', r.call c = .ok (code, r') ∧ r'.Consistent := by
  obtain ⟨hrep, hsound⟩ := h
  cases c with
  | addSession session sourceId sourceAddr =>
    obtain ⟨r', code, t', n', hr', hadded, h'⟩ := hrep.addSession hsound session sourceId sourceAddr
    exact ⟨code, r', hr', .of_represents h' (hadded.sound hsound)⟩
  | removeSession session =>
    obtain ⟨r', t', hr', hremoved, h'⟩ := hrep.removeSession session
    refine ⟨.ok, r', ?_, .of_represents h' (hremoved.sound hsound)⟩
    unfold SessionRouter.call
    simp only [hr', ok_bind, pure_eq_ok]
  | linkSource sourceId cname hne =>
    obtain ⟨r', t', n', hr', hlinked, h'⟩ := hrep.linkSource hsound hne hc
    exact ⟨.ok, r', hr', .of_represents h' (hlinked.sound hsound fun i j route route' hi hj hs hs' =>
      hrep.source.unique hi hj hs hs')⟩
  | unlinkSource sourceId =>
    obtain ⟨r', t', hr', hunlinked, h'⟩ := hrep.unlinkSource hsound sourceId
    refine ⟨.ok, r', ?_, .of_represents h' (hunlinked.sound hsound)⟩
    unfold SessionRouter.call
    simp only [hr', ok_bind, pure_eq_ok]

/-! ### Calls with the buckets of the maps -/

/-- `key_hash` of the nodes of the four maps. -/
structure KeyHashes (σ : Type) where
  source : UInt32 → Nat := hashsumInt32
  address : SocketAddr → Nat
  cname : CString → Nat
  session : Option σ → Nat

/-- The maps have `PreallocatedRoutes` as embedded capacity, which makes six embedded buckets. -/
def embeddedBuckets : Nat := 6

section
variable (hashes : KeyHashes σ)

/-- The buckets of the maps after the calls so far; the error is the panic of a map. -/
def buckets (r : SessionRouter σ) : Except Fault Unit := do
  let _ ← r.sourceRouteMap.table hashes.source embeddedBuckets
  let _ ← r.addressRouteMap.table hashes.address embeddedBuckets
  let _ ← r.cnameRouteMap.table hashes.cname embeddedBuckets
  let _ ← r.sessionRouteMap.table hashes.session embeddedBuckets
  return ()

def callOn (r : SessionRouter σ) (c : Call σ) : Except Fault (StatusCode × SessionRouter σ) := do
  let (code, r) ← r.call c
  r.buckets hashes
  return (code, r)

/-- No insertion so far has had to grow a map that was full while its rehashing had stopped inside the previous
buckets. -/
structure Unblocked (r : SessionRouter σ) : Prop where
  source : Hashmap.Unblocked hashes.source embeddedBuckets r.sourceRouteMap.calls
  address : Hashmap.Unblocked hashes.address embeddedBuckets r.addressRouteMap.calls
  cname : Hashmap.Unblocked hashes.cname embeddedBuckets r.cnameRouteMap.calls
  session : Hashmap.Unblocked hashes.session embeddedBuckets r.sessionRouteMap.calls

end

section
variable {hashes : KeyHashes σ}

theorem buckets_ok_iff : r.buckets hashes = .ok () ↔ r.Unblocked hashes := by
  have hmap {κ : Type} [DecidableEq κ] (m : NodeMap κ Nat) (hash : κ → Nat) :
      (∃ h, m.table hash embeddedBuckets = .ok h) ↔ Hashmap.Unblocked hash embeddedBuckets m.calls :=
    m.journal.choose_spec.1.table_ok_iff
  unfold buckets
  simp only [bind_eq_ok, pure_eq_ok, and_true, exists_and_right, hmap]
  constructor
  · rintro ⟨hs, ha, hc, hn⟩
    exact ⟨hs, ha, hc, hn⟩
  · rintro ⟨hs, ha, hc, hn⟩
    exact ⟨hs, ha, hc, hn⟩

theorem callOn_ok_iff {c : Call σ} {code : StatusCode} :
    r.callOn hashes c = .ok (code, r') ↔ r.call c = .ok (code, r') ∧ r'.Unblocked hashes := by
  unfold callOn
  simp only [bind_eq_ok, pure_eq_ok, Except.ok.injEq, Prod.exists, ← buckets_ok_iff]
  constructor
  · rintro ⟨_, _, hcall, ⟨⟩, hbuckets, ⟨⟩⟩
    exact ⟨hcall, hbuckets⟩
  · rintro ⟨hcall, hbuckets⟩
    exact ⟨code, r', hcall, (), hbuckets, rfl⟩

end

def letter (c : UInt8) (hc : 0 ≠ c) : Cname := ⟨⟨[c], by simpa using hc⟩, by show 1 ≤ 255; decide⟩

theorem Consistent.step {c : Call σ} (h : r.Consistent) (hc : r.MovesSession c) (hs : CallStep r c r') : r'.Consistent := by
  obtain ⟨code, hstep⟩ := hs
  obtain ⟨_, _, hr, h'⟩ := h.call hc
  rw [hstep] at hr
  cases hr
  exact h'

section
variable {t t' : Routes σ} {n : Nat} {session other : σ}

theorem Represents.lookup_iff {κ : Type} {keys : Route σ → List κ} {m : κ → Option Nat} (h : r.Represents t n)
    (hm : Indexes keys t m) (k : κ) :
    ((match m k with
      | none => .ok none
      | some id => do return (← r.route id).session) : Except Fault (Option σ)) = .ok (some session) ↔
      ∃ id route, t id = some route ∧ k ∈ keys route ∧ route.session = some session := by
  constructor
  · intro hfind
    split at hfind
    · cases hfind
    · next id hid =>
      obtain ⟨route, hf, hs⟩ := (hm _ _).mp hid
      rw [h.routeAt hf] at hfind
      exact ⟨id, route, hf, hs, Except.ok.inj hfind⟩
  · rintro ⟨id, route, hf, hs, he⟩
    simp only [(hm _ _).mpr ⟨route, hf, hs⟩, h.routeAt hf, ok_bind, he, pure_eq_ok]

theorem Represents.findByAddress_iff (h : r.Represents t n) {addr : SocketAddr} :
    r.findByAddress addr = .ok (some session) ↔
      ∃ id route, t id = some route ∧ addr ∈ route.addressKeys ∧ route.session = some session := by
  unfold findByAddress
  split
  · next hno => simp [Route.mem_addressKeys, hno]
  · exact h.lookup_iff h.address addr

theorem Represents.hasSession_iff (h : r.Represents t n) :
    r.hasSession session = true ↔ ∃ id route, t id = some route ∧ True ∧ route.session = some session := by
  rw [hasSession, Option.isSome_iff_exists]
  refine exists_congr fun id => (h.session _ _).trans (exists_congr fun route => ?_)
  simp [Route.mem_sessionKeys]

/-- What is found after a session is removed: all that was found before, but for that session. -/
theorem Removed.found (hr : Routes.Removed t session t') (h : r.Represents t n) {p : Route σ → Prop} :
    (∃ id route, t' id = some route ∧ p route ∧ route.session = some other) ↔
      (∃ id route, t id = some route ∧ p route ∧ route.session = some other) ∧ other ≠ session := by
  cases hr with
  | none hno =>
    refine ⟨fun hfound => ⟨hfound, ?_⟩, And.left⟩
    rintro rfl
    obtain ⟨id, route, hf, -, hs⟩ := hfound
    exact hno id route hf hs
  | @some id0 route0 hf0 hs0 =>
    constructor
    · rintro ⟨id, route, hf, hp, hs⟩
      have hid : id ≠ id0 := by
        rintro rfl
        rw [Function.update_self] at hf
        cases hf
      rw [Function.update_of_ne hid] at hf
      refine ⟨⟨id, route, hf, hp, hs⟩, ?_⟩
      rintro rfl
      have hkey : ∀ {route : Route σ}, route.session = some other → some other ∈ route.sessionKeys :=
        fun hs => Route.mem_sessionKeys.mpr ⟨hs, Option.some_ne_none _⟩
      exact hid (h.session.unique hf hf0 (hkey hs) (hkey hs0))
    · rintro ⟨⟨id, route, hf, hp, hs⟩, hne⟩
      refine ⟨id, route, ?_, hp, hs⟩
      rw [Function.update_of_ne]
      · exact hf
      · rintro rfl
        rw [hf0] at hf
        cases hf
        rw [hs0] at hs
        exact hne (Option.some.inj hs).symm

end

/-- Lookups in every run: a session that is removed is not found any more, by no SSRC and no address, and all others
are found as before; a session that is added is found by its SSRC and its address. -/
theorem lookups_of_reaches (h : Reaches (· = {}) CallStep MovesSession r) (session : σ) :
    (∃ r', r.removeSession session = .ok r' ∧ ∀ other,
      (r'.hasSession other = true ↔ r.hasSession other = true ∧ other ≠ session) ∧
      (∀ source, r'.findBySource source = .ok (some other) ↔
        r.findBySource source = .ok (some other) ∧ other ≠ session) ∧
      ∀ addr, r'.findByAddress addr = .ok (some other) ↔
        r.findByAddress addr = .ok (some other) ∧ other ≠ session) ∧
    ∀ source addr r', r.addSession session source addr = .ok (.ok, r') →
      r'.hasSession session = true ∧ r'.findBySource source = .ok (some session) ∧
        (addr ≠ .unspecified → r'.findByAddress addr = .ok (some session)) := by
  have hcons : r.Consistent := h.invariant (by rintro _ rfl; exact .empty) fun _ _ _ hr hc hs => hr.step hc hs
  refine ⟨?_, fun source addr r' hadd => ?_⟩
  · obtain ⟨r', t', hr', hremoved, h'⟩ := hcons.maps.removeSession session
    refine ⟨r', hr', fun other => ⟨?_, fun source => ?_, fun addr => ?_⟩⟩
    · rw [h'.hasSession_iff, hcons.maps.hasSession_iff, Removed.found hremoved hcons.maps]
    · exact (h'.lookup_iff h'.source source).trans ((Removed.found hremoved hcons.maps).trans
        (and_congr_left fun _ => (hcons.maps.lookup_iff hcons.maps.source source).symm))
    · rw [h'.findByAddress_iff, hcons.maps.findByAddress_iff, Removed.found hremoved hcons.maps]
  · obtain ⟨_, code, t', n', hr', hadded, h'⟩ := hcons.maps.addSession hcons.sound session source addr
    rw [hadd] at hr'
    cases hr'
    have hroute : ∃ id route, t' id = some route ∧ source ∈ route.sources ∧ route.sourceAddr = addr ∧
        route.session = some session := by
      cases hadded with
      | attach _ _ _ hs => exact ⟨_, _, Function.update_self .., hs, rfl, rfl⟩
      | create => exact ⟨_, _, Function.update_self .., mem_singleton_self _, rfl, rfl⟩
    obtain ⟨id, route, hf, hsource, haddr, hsession⟩ := hroute
    exact ⟨h'.hasSession_iff.mpr ⟨id, route, hf, trivial, hsession⟩,
      (h'.lookup_iff h'.source source).mpr ⟨id, route, hf, hsource, hsession⟩, fun hne =>
      h'.findByAddress_iff.mpr ⟨id, route, hf, Route.mem_addressKeys.mpr ⟨haddr, hne⟩, hsession⟩⟩

/-- A session is found once it is added, and not once it is removed. -/
theorem lookups_of_reaches_session : ∃ r r' : SessionRouter Nat, r.findBySource 1 = .ok (some 7) ∧
    r.removeSession 7 = .ok r' ∧ r'.findBySource 1 ≠ .ok (some 7) := by
  have hrun : ((addSession ({} : SessionRouter Nat) 7 1 (.ipv4 1 1)).toOption.any fun x => x.1 = .ok) = true := by
    decide +kernel
  obtain ⟨⟨code, r⟩, hr, hok⟩ := (Option.any_eq_true _ _).mp hrun
  have hadd := toOption_eq_some hr
  obtain rfl : code = .ok := of_decide_eq_true hok
  have hfound := ((lookups_of_reaches (.start rfl) 7).2 1 (.ipv4 1 1) r hadd).2.1
  have hreach : Reaches (· = {}) CallStep MovesSession r :=
    .step (a := .addSession 7 1 (.ipv4 1 1)) (.start rfl) trivial ⟨.ok, hadd⟩
  obtain ⟨r', hr', hlookup⟩ := (lookups_of_reaches hreach 7).1
  exact ⟨r, r', hfound, hr', fun hstill => (((hlookup 7).2.1 1).mp hstill).2 rfl⟩

end SessionRouter
end Roc.Pipeline
