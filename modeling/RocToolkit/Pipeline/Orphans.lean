import RocToolkit.Pipeline.SessionGroup

/-!
# RocToolkit.Pipeline.Orphans

Which sessions the routes of the router lead to, and how the calls of the group keep that set equal to
its list of sessions. The group looks only at the session that the SSRC of a call had before it; so it
misses a session that is displaced from another route (`SessionGroup.TargetFree`).
-/

open Function (update update_apply update_eq_self_iff update_idem update_of_ne update_self)

namespace Roc.Pipeline

open List

open Rtcp (Cname CString SendReport)

open Option Routes

variable {σ : Type}

/-! ## Sessions of a table -/

namespace Routes

def Serves (t : Routes σ) (session : σ) : Prop := ∃ id route, t id = some route ∧ route.session = some session

def TargetFree (t : Routes σ) (sourceId : UInt32) (cname : Cname) : Prop :=
  ∀ id route, t id = some route → sourceId ∈ route.sources → route.mainSourceId = some sourceId →
    t.Relinks route cname → ∀ id' route', t id' = some route' → route'.cname.text = cname.text → route'.session = none

variable {t t' : Routes σ} {n n' id : Nat} {route : Route σ} {sourceId : UInt32} {cname : Cname}
  {session x : σ}

theorem serves_update {o : Option (Route σ)} :
    Serves (update t id o) x ↔ (∃ route, o = some route ∧ route.session = some x) ∨
      ∃ j ≠ id, ∃ route, t j = some route ∧ route.session = some x := by
  constructor
  · rintro ⟨j, route, hf, hs⟩
    rw [update_apply] at hf
    split at hf
    · exact .inl ⟨route, hf, hs⟩
    · next hj => exact .inr ⟨j, hj, route, hf, hs⟩
  · rintro (⟨route, rfl, hs⟩ | ⟨j, hj, route, hf, hs⟩)
    · exact ⟨id, route, update_self .., hs⟩
    · exact ⟨j, route, (update_of_ne hj ..).trans hf, hs⟩

theorem serves_keep (hf : t id = some route) {route' : Route σ} (hs : route'.session = route.session) :
    Serves (update t id (some route')) x ↔ Serves t x := by
  have hself : update t id (some route) = t := update_eq_self_iff.mpr hf.symm
  rw [← hself, update_idem, serves_update, serves_update]
  simp [hs]

section
variable (ht : Target t n sourceId cname id route n') (hfresh : t n = none)
include ht hfresh

theorem target_session : (t id = none ∧ route.session = none) ∨
      ∃ old, t id = some old ∧ old.cname.text = cname.text ∧ route.session = old.session := by
  cases ht with
  | new h => exact .inl ⟨hfresh, rfl⟩
  | known hf hc => exact .inr ⟨_, hf, hc, rfl⟩

theorem serves_target : Serves (update t id (some route)) x ↔ Serves t x := by
  rcases target_session ht hfresh with ⟨hn, hs⟩ | ⟨old, hf, -, hs⟩
  · rw [serves_update]
    constructor
    · rintro (⟨route', heq, hx⟩ | ⟨j, -, route', hf, hx⟩)
      · cases heq
        rw [hs] at hx
        cases hx
      · exact ⟨j, route', hf, hx⟩
    · rintro ⟨j, route', hf, hx⟩
      refine .inr ⟨j, ?_, route', hf, hx⟩
      rintro rfl
      rw [hn] at hf
      cases hf
  · exact serves_keep hf hs

end

def HadSession (t : Routes σ) (sourceId : UInt32) (session : σ) : Prop :=
  ∃ id route, t id = some route ∧ sourceId ∈ route.sources ∧ route.session = some session

def Loses (t : Routes σ) (sourceId : UInt32) (t' : Routes σ) : Prop :=
  ∀ x, (Serves t' x → Serves t x) ∧ (Serves t x → Serves t' x ∨ HadSession t sourceId x)

theorem Loses.of_iff (h : ∀ x, Serves t' x ↔ Serves t x) : Loses t sourceId t' :=
  fun x => ⟨(h x).mp, fun hx => .inl ((h x).mpr hx)⟩

theorem serves_of_put (hf : t id = some route) (route' : Route σ)
    (hsess : route'.session = some x → route.session = some x) (hx : Serves (t.put id route') x) : Serves t x := by
  rw [put, serves_update] at hx
  rcases hx with ⟨r, hr, hx⟩ | ⟨j, -, r, hr, hx⟩
  · split at hr
    · cases hr
    · cases hr
      exact ⟨id, route, hf, hsess hx⟩
  · exact ⟨j, r, hr, hx⟩

theorem loses_unlinked (hu : Unlinked t sourceId t') : Loses t sourceId t' := by
  cases hu with
  | none => exact .of_iff fun x => Iff.rfl
  | @some id route hf hs =>
    refine fun x => ⟨serves_of_put hf _ fun hx => hx, ?_⟩
    rintro ⟨j, r, hr, hx⟩
    by_cases hj : j = id
    · subst hj
      exact .inr ⟨j, r, hr, some.inj (hf.symm.trans hr) ▸ hs, hx⟩
    · exact .inl (serves_update.mpr (.inr ⟨j, hj, r, hr, hx⟩))

theorem loses_linked [DecidableEq σ] (hl : Linked t n sourceId cname t' n') (hfresh : t n = none)
    (hfree : t.TargetFree sourceId cname) : Loses t sourceId t' := by
  cases hl with
  | same => exact .of_iff fun x => Iff.rfl
  | name hf => exact .of_iff fun x => serves_keep hf rfl
  | place _ ht => exact .of_iff fun x => serves_target ht hfresh
  | @moveOther oldId newId n' oldRoute newRoute hf hs hc ht hmain =>
    intro x
    have hne : oldId ≠ newId := SessionRouter.Target.ne ht hfresh hf hc
    have hf' : update t newId (some newRoute) oldId = some oldRoute := (update_of_ne hne ..).trans hf
    refine ⟨fun hx => (serves_target ht hfresh).mp (serves_of_put hf' (oldRoute.drop sourceId) (fun hx => hx) hx), ?_⟩
    intro hx
    obtain ⟨j, r, hr, hx⟩ := (serves_target (x := x) ht hfresh).mpr hx
    by_cases hj : j = oldId
    · subst hj
      obtain rfl := some.inj (hf'.symm.trans hr)
      exact .inr ⟨j, oldRoute, hf, hs, hx⟩
    · exact .inl (serves_update.mpr (.inr ⟨j, hj, r, hr, hx⟩))
  | @moveMain oldId newId n' oldRoute newRoute hf hs hc ht hmain =>
    intro x
    have hne : oldId ≠ newId := SessionRouter.Target.ne ht hfresh hf hc
    refine ⟨fun hx => ?_, fun hx => ?_⟩
    · rw [put, serves_update] at hx
      rcases hx with ⟨r, hr, hx⟩ | ⟨j, -, hx⟩
      · split at hr
        · cases hr
        · cases hr
          cases hx
      · obtain ⟨r, hr, hx⟩ := hx
        rw [update_apply] at hr
        split at hr
        · cases hr
          exact ⟨oldId, oldRoute, hf, hx⟩
        · exact ⟨j, r, hr, hx⟩
    · obtain ⟨j, r, hr, hx⟩ := hx
      by_cases hj : j = oldId
      · subst hj
        obtain rfl := some.inj (hf.symm.trans hr)
        exact .inr ⟨j, oldRoute, hf, hs, hx⟩
      · refine .inl (serves_update.mpr (.inr ⟨j, hj, r, ?_, hx⟩))
        have hj' : j ≠ newId := by
          -- the route that the SSRC comes to had no session
          rintro rfl
          rcases target_session ht hfresh with ⟨hn, -⟩ | ⟨old, ho, hcold, -⟩
          · rw [hn] at hr
            cases hr
          · have hrel : t.Relinks oldRoute cname := ⟨hc, .inr fun hno => hno _ _ ho hcold⟩
            have hnone := hfree oldId oldRoute hf hs hmain hrel _ _ ho hcold
            obtain rfl := some.inj (ho.symm.trans hr)
            rw [hnone] at hx
            cases hx
        exact (update_of_ne hj' ..).trans hr

theorem serves_removed (hr : Removed t session t')
    (hunique : ∀ i j route route', t i = some route → t j = some route' → route.session = some session →
      route'.session = some session → i = j) : Serves t' x ↔ Serves t x ∧ x ≠ session := by
  cases hr with
  | none hs =>
    refine ⟨fun hx => ⟨hx, ?_⟩, fun hx => hx.1⟩
    rintro rfl
    obtain ⟨i, route, hf, hx⟩ := hx
    exact hs i route hf hx
  | @some id route hf hs =>
    rw [serves_update]
    constructor
    · rintro (⟨r, hr, _⟩ | ⟨j, hj, r, hr, hx⟩)
      · cases hr
      · refine ⟨⟨j, r, hr, hx⟩, ?_⟩
        rintro rfl
        exact hj (hunique j id r route hr hf hx hs)
    · rintro ⟨⟨j, r, hr, hx⟩, hne⟩
      refine .inr ⟨j, ?_, r, hr, hx⟩
      rintro rfl
      obtain rfl := some.inj (hf.symm.trans hr)
      exact hne (some.inj (hx.symm.trans hs))

theorem serves_added {addr : SocketAddr} {code : StatusCode}
    (ha : Added t n session sourceId addr code t' n') (hfresh : t n = none) (hnone : ∀ y, ¬ HadSession t sourceId y) :
    (code = .ok ∧ ∀ x, Serves t' x ↔ Serves t x ∨ x = session) ∨ (code ≠ .ok ∧ t' = t) := by
  cases ha with
  | conflict => exact .inr ⟨by simp, rfl⟩
  | @attach id route _ _ hf hs hnoaddr hnosess =>
    refine .inl ⟨rfl, fun x => ?_⟩
    rw [serves_update]
    constructor
    · rintro (⟨r, hr, hx⟩ | ⟨j, -, r, hr, hx⟩)
      · cases hr
        exact .inr (some.inj hx).symm
      · exact .inl ⟨j, r, hr, hx⟩
    · rintro (⟨j, r, hr, hx⟩ | rfl)
      · refine .inr ⟨j, ?_, r, hr, hx⟩
        rintro rfl
        obtain rfl := some.inj (hf.symm.trans hr)
        rw [hnosess] at hx
        cases hx
      · exact .inl ⟨_, rfl, rfl⟩
  | @create t1 _ _ hu hother =>
    refine .inl ⟨rfl, fun x => ?_⟩
    have hsame : Serves t1 x ↔ Serves t x := by
      refine ⟨(loses_unlinked hu x).1, fun hx => ((loses_unlinked hu x).2 hx).resolve_right (hnone x)⟩
    have hfresh1 : ∀ r, t1 n ≠ some r := by
      intro r hr
      cases hu with
      | none => rw [hfresh] at hr; cases hr
      | some hf hs =>
        rw [put, update_apply] at hr
        split at hr
        · next hn => rw [← hn, hfresh] at hf; cases hf
        · rw [hfresh] at hr; cases hr
    rw [← hsame, serves_update]
    constructor
    · rintro (⟨r, hr, hx⟩ | ⟨j, -, r, hr, hx⟩)
      · cases hr
        exact .inr (some.inj hx).symm
      · exact .inl ⟨j, r, hr, hx⟩
    · rintro (⟨j, r, hr, hx⟩ | rfl)
      · refine .inr ⟨j, ?_, r, hr, hx⟩
        rintro rfl
        exact hfresh1 r hr
      · exact .inl ⟨_, rfl, rfl⟩

end Routes

/-! ## Lookup in a consistent router -/

namespace SessionRouter

open Routes (Serves HadSession)

variable [DecidableEq σ] {r : SessionRouter σ} {session : σ} {sourceId : UInt32} {found : Option σ}

section
variable (h : r.Consistent)
include h

theorem Consistent.hasSession : r.hasSession session = true ↔ Serves r.routes.get session := by
  rw [SessionRouter.hasSession, isSome_iff_exists]
  constructor
  · rintro ⟨id, hid⟩
    obtain ⟨route, hf, hk⟩ := (h.maps.session _ _).mp hid
    exact ⟨id, route, hf, (Route.mem_sessionKeys.mp hk).1⟩
  · rintro ⟨id, route, hf, hs⟩
    exact ⟨id, h.maps.session.find hf (Route.mem_sessionKeys.mpr ⟨hs, some_ne_none _⟩)⟩

theorem Consistent.findBySource (hfound : r.findBySource sourceId = .ok found) :
    ∀ x, HadSession r.routes.get sourceId x ↔ found = some x := by
  intro x
  unfold SessionRouter.findBySource at hfound
  split at hfound
  · next hn =>
    cases hfound
    refine ⟨?_, fun hx => by cases hx⟩
    rintro ⟨id, route, hf, hs, _⟩
    exact absurd hs (h.maps.noSource.mp hn id route hf)
  · next id hid =>
    obtain ⟨route, hf, hs⟩ := (h.maps.source _ _).mp hid
    rw [h.maps.routeAt hf] at hfound
    cases hfound
    constructor
    · rintro ⟨id', route', hf', hs', hx⟩
      obtain rfl := h.maps.source.unique hf hf' hs hs'
      obtain rfl := some.inj (hf.symm.trans hf')
      exact hx
    · exact fun hx => ⟨id, route, hf, hs, hx⟩

theorem Consistent.uniqueSession {i j : Nat} {route route' : Route σ}
    (hi : r.routes.get i = some route) (hj : r.routes.get j = some route')
    (hs : route.session = some session) (hs' : route'.session = some session) : i = j :=
  h.maps.session.unique hi hj (Route.mem_sessionKeys.mpr ⟨hs, some_ne_none _⟩)
    (Route.mem_sessionKeys.mpr ⟨hs', some_ne_none _⟩)

theorem Consistent.fresh : r.routes.get r.nextRoute = none := h.sound.fresh _ (Nat.le_refl _)

end
end SessionRouter

/-! ## The invariant of the group -/

namespace SessionGroup

open Routes (Serves HadSession Loses TargetFree)

variable {ψ : Type} {C : SessionClass ψ} {config : GroupConfig} {g g' : SessionGroup ψ} {base : Int}
  {sess : Nat}

/-- The sessions of the list are inputs of the mixer, counted in the tracker over `base`, and their
numbers were given out. -/
structure Listed (base : Int) (g : SessionGroup ψ) : Prop where
  router : g.router.Consistent
  nodup : g.sessions.Nodup
  mixer : g.mixerInputs = g.sessions
  issued : ∀ sess ∈ g.sessions, sess < g.nextSession
  counted : g.tracker.activeSessions = base + g.sessions.length

structure NoOrphans (base : Int) (g : SessionGroup ψ) : Prop extends Listed base g where
  serves : ∀ sess, sess ∈ g.sessions ↔ Serves g.router.routes.get sess

theorem removeMember_ok {l l' : List Nat} (h : removeMember l sess = .ok l') : sess ∈ l ∧ l' = l.erase sess := by
  unfold removeMember at h
  split at h
  · next hmem =>
    cases h
    exact ⟨hmem, rfl⟩
  · cases h

theorem Listed.removeSession (h : Listed base g) (hr : g.removeSession sess = .ok g') :
    Listed base g' ∧ g'.sessions = g.sessions.erase sess ∧
      ∀ x, Serves g'.router.routes.get x ↔ Serves g.router.routes.get x ∧ x ≠ sess := by
  obtain ⟨mixerInputs, hm, hr⟩ := bind_eq_ok.mp hr
  obtain ⟨sessions, hs, hr⟩ := bind_eq_ok.mp hr
  obtain ⟨router, hrouter, hr⟩ := bind_eq_ok.mp hr
  obtain ⟨tracker, ht, hr⟩ := bind_eq_ok.mp hr
  cases hr
  obtain ⟨-, rfl⟩ := removeMember_ok hm
  obtain ⟨hmem, rfl⟩ := removeMember_ok hs
  obtain rfl := StateTracker.addActiveSessions_ok ht
  obtain ⟨r', t', hr', hremoved, hrep⟩ := h.router.maps.removeSession sess
  obtain rfl := Except.ok.inj (hrouter.symm.trans hr')
  obtain ⟨rfl, hnext, -⟩ := id hrep
  refine ⟨⟨.of_represents hrep (hremoved.sound h.router.sound), h.nodup.erase _, ?_, ?_, ?_⟩, rfl, ?_⟩
  · show g.mixerInputs.erase sess = _
    rw [h.mixer]
  · exact fun x hx => h.issued x (mem_of_mem_erase hx)
  · have hpos := length_pos_of_mem hmem
    have hlen := length_erase_of_mem hmem
    show g.tracker.activeSessions + -1 = base + ((g.sessions.erase sess).length : Int)
    rw [hlen, h.counted]
    omega
  · exact fun x => serves_removed hremoved fun i j route route' => h.router.uniqueSession

section
variable (h : NoOrphans base g)
include h

theorem NoOrphans.removeSession (hr : g.removeSession sess = .ok g') : NoOrphans base g' := by
  obtain ⟨hlisted, hsessions, hserves⟩ := h.toListed.removeSession hr
  refine ⟨hlisted, fun x => ?_⟩
  rw [hsessions, h.nodup.mem_erase_iff, hserves, h.serves]
  exact and_comm

variable {sourceId : UInt32}

theorem NoOrphans.removeOrphan {router : SessionRouter Nat}
    {oldSess : Option Nat} (hold : g.router.findBySource sourceId = .ok oldSess)
    (hcons : router.Consistent) (hloses : Loses g.router.routes.get sourceId router.routes.get)
    (hr : { g with router }.removeOrphan oldSess = .ok g') : NoOrphans base g' := by
  have hlisted : Listed base { g with router } := ⟨hcons, h.nodup, h.mixer, h.issued, h.counted⟩
  have hhad := h.router.findBySource hold
  -- a session that is not the old one is kept
  have hkept (x : Nat) (hx : oldSess ≠ some x) : x ∈ g.sessions ↔ Serves router.routes.get x := by
    rw [h.serves]
    exact ⟨fun hs => ((hloses x).2 hs).resolve_right fun hh => hx ((hhad x).mp hh), (hloses x).1⟩
  cases oldSess with
  | none =>
    cases hr
    exact ⟨hlisted, fun x => hkept x (by simp)⟩
  | some old =>
    have holdServes : Serves g.router.routes.get old := by
      obtain ⟨id, route, hf, _, hs⟩ := (hhad old).mpr rfl
      exact ⟨id, route, hf, hs⟩
    unfold SessionGroup.removeOrphan at hr
    simp only at hr
    split at hr
    · next hhas =>
      cases hr
      refine ⟨hlisted, fun x => ?_⟩
      by_cases hx : old = x
      · subst hx
        exact iff_of_true ((h.serves old).mpr holdServes) (hcons.hasSession.mp hhas)
      · exact hkept x (by simpa using hx)
    · next hhas =>
      obtain ⟨hlisted', hsessions, hserves⟩ := hlisted.removeSession hr
      refine ⟨hlisted', fun x => ?_⟩
      rw [hsessions, h.nodup.mem_erase_iff, hserves]
      by_cases hx : x = old
      · simp [hx]
      · rw [hkept x (by simpa using Ne.symm hx)]
        exact and_comm

theorem NoOrphans.setObject (sess : Nat) (object : ψ) : NoOrphans base (g.setObject sess object) :=
  ⟨⟨h.router, h.nodup, h.mixer, h.issued, h.counted⟩, h.serves⟩

theorem NoOrphans.addSession {srcAddr : SocketAddr} (hnone : ∀ y, ¬ HadSession g.router.routes.get sourceId y)
    (hr : g.addSession sourceId srcAddr = .ok g') : NoOrphans base g' := by
  obtain ⟨⟨code, router⟩, hrouter, hr⟩ := bind_eq_ok.mp hr
  obtain ⟨r', code', t', n', hr', hadded, hrep⟩ :=
    h.router.maps.addSession h.router.sound g.nextSession sourceId srcAddr
  obtain ⟨rfl, rfl⟩ := Prod.mk.inj (Except.ok.inj (hrouter.symm.trans hr'))
  obtain ⟨rfl, rfl, -⟩ := id hrep
  have hcons : router.Consistent := ⟨hrep, hadded.sound h.router.sound⟩
  obtain ⟨rfl, hserves⟩ | ⟨hcode, hsame⟩ := serves_added hadded h.router.fresh hnone
  · simp only [ne_eq, not_true_eq_false, ↓reduceIte] at hr
    obtain ⟨tracker, ht, hr⟩ := bind_eq_ok.mp hr
    cases hr
    obtain rfl := StateTracker.addActiveSessions_ok ht
    have hnew : g.nextSession ∉ g.sessions := fun hmem => Nat.lt_irrefl _ (h.issued _ hmem)
    refine ⟨⟨hcons, ?_, ?_, ?_, ?_⟩, fun x => ?_⟩
    · exact nodup_append.mpr ⟨h.nodup, nodup_singleton _, fun a ha b hb heq =>
        hnew (mem_singleton.mp hb ▸ heq ▸ ha)⟩
    · show g.mixerInputs ++ _ = _
      rw [h.mixer]
    · intro x hx
      rcases mem_append.mp hx with hx | hx
      · exact Nat.lt_succ_of_lt (h.issued x hx)
      · rw [mem_singleton.mp hx]
        exact Nat.lt_succ_self _
    · show g.tracker.activeSessions + 1 = base + ((g.sessions ++ [g.nextSession]).length : Int)
      rw [h.counted, length_append, length_singleton]
      omega
    · rw [hserves, ← h.serves, mem_append, mem_singleton]
  · simp only [ne_eq, hcode, not_false_eq_true, ↓reduceIte] at hr
    cases hr
    refine ⟨⟨hcons, h.nodup, h.mixer, fun x hx => Nat.lt_succ_of_lt (h.issued x hx), h.counted⟩, ?_⟩
    intro x
    rw [hsame]
    exact h.serves x

theorem NoOrphans.createSession {packet : Packet} {code : StatusCode}
    (hnone : ∀ sourceId, packet.sourceId = some sourceId → ∀ y, ¬ HadSession g.router.routes.get sourceId y)
    (hr : g.createSession C packet = .ok (code, g')) : NoOrphans base g' := by
  unfold SessionGroup.createSession at hr
  split at hr
  · next rtp udp object hrtp _ _ =>
    split at hr
    · next object' _ =>
      obtain ⟨g1, hg1, hr⟩ := bind_eq_ok.mp hr
      cases hr
      refine (h.setObject g.nextSession object').addSession (hnone _ ?_) hg1
      rw [Packet.sourceId, hrtp]
      rfl
    · cases hr
      exact h
  · cases hr
    exact h

end

theorem findSession_none (hrouting : config.enableRouting = true) (h : g.router.Consistent)
    (hfind : g.findSession config packet = .ok none) (hid : packet.sourceId = some sourceId) (y : Nat) :
    ¬ HadSession g.router.routes.get sourceId y := by
  unfold findSession at hfind
  rw [if_pos hrouting, hid] at hfind
  obtain ⟨found, hfound, hfind⟩ := bind_eq_ok.mp hfind
  rw [h.findBySource hfound y]
  rintro rfl
  cases hudp : packet.udp <;> rw [hudp] at hfind <;> cases hfind

theorem NoOrphans.routeTransportPacket (h : NoOrphans base g) (hrouting : config.enableRouting = true)
    (hr : g.routeTransportPacket C config packet = .ok (code, g')) : NoOrphans base g' := by
  obtain ⟨found, hfind, hr⟩ := bind_eq_ok.mp hr
  cases found with
  | some sess =>
    obtain ⟨object, _, hr⟩ := bind_eq_ok.mp hr
    cases hr
    exact h.setObject _ _
  | none =>
    simp only at hr
    split at hr
    · exact h.createSession (fun sourceId hid => findSession_none hrouting h.router hfind hid) hr
    · cases hr
      exact h

theorem NoOrphans.haltRecvStream (h : NoOrphans base g)
    (hr : g.haltRecvStream sourceId = .ok g') : NoOrphans base g' := by
  obtain ⟨oldSess, hold, hr⟩ := bind_eq_ok.mp hr
  obtain ⟨router, hrouter, hr⟩ := bind_eq_ok.mp hr
  obtain ⟨r', t', hr', hunlinked, hrep⟩ := h.router.maps.unlinkSource h.router.sound sourceId
  obtain rfl := Except.ok.inj (hrouter.symm.trans hr')
  obtain ⟨rfl, hnext, -⟩ := id hrep
  exact h.removeOrphan hold (.of_represents hrep (hunlinked.sound h.router.sound)) (loses_unlinked hunlinked) hr

theorem NoOrphans.processReport (h : NoOrphans base g)
    (hr : g.processReport C sourceId report = .ok g') : NoOrphans base g' := by
  obtain ⟨found, _, hr⟩ := bind_eq_ok.mp hr
  cases found with
  | none =>
    cases hr
    exact h
  | some sess =>
    obtain ⟨object, _, hr⟩ := bind_eq_ok.mp hr
    cases hr
    exact h.setObject _ _

/-- `link_source` returns only for a CNAME that meets its precondition. -/
theorem linkSource_cname {σ : Type} [DecidableEq σ] {r : SessionRouter σ}
    {text : Option CString} {result : StatusCode × SessionRouter σ} (h : r.linkSource sourceId text = .ok result) :
    ∃ cname : Cname, cname.text.length ≠ 0 ∧ text = some cname.text := by
  unfold SessionRouter.linkSource at h
  cases text with
  | none => cases h
  | some text =>
    simp only at h
    split at h
    · cases h
    · next hne =>
      split at h
      · cases h
      · next hfits => exact ⟨⟨text, Nat.not_lt.mp hfits⟩, hne, rfl⟩

theorem NoOrphans.notifyRecvStream (h : NoOrphans base g)
    (hkeeps : ∀ cname : Cname, report.senderCname = some cname.text →
      Routes.MovesSession g.router.routes.get sourceId cname ∧ TargetFree g.router.routes.get sourceId cname)
    (hr : g.notifyRecvStream C sourceId report = .ok (code, g')) : NoOrphans base g' := by
  obtain ⟨oldSess, hold, hr⟩ := bind_eq_ok.mp hr
  obtain ⟨⟨code', router⟩, hrouter, hr⟩ := bind_eq_ok.mp hr
  obtain ⟨cname, hne, hcname⟩ := linkSource_cname hrouter
  obtain ⟨hmoves, hfree⟩ := hkeeps cname hcname
  rw [hcname] at hrouter
  obtain ⟨r', t', n', hr', hlinked, hrep⟩ := h.router.maps.linkSource h.router.sound hne hmoves
  obtain ⟨rfl, rfl⟩ := Prod.mk.inj (Except.ok.inj (hrouter.symm.trans hr'))
  obtain ⟨rfl, rfl, -⟩ := id hrep
  simp only [ne_eq, not_true_eq_false, ↓reduceIte] at hr
  obtain ⟨g1, hg1, hr⟩ := bind_eq_ok.mp hr
  obtain ⟨g2, hg2, hr⟩ := bind_eq_ok.mp hr
  cases hr
  have hcons : router.Consistent := ⟨hrep, hlinked.sound h.router.sound
    fun i j route route' hi hj hs hs' => h.router.maps.source.unique hi hj hs hs'⟩
  exact (h.removeOrphan hold hcons (loses_linked hlinked h.router.fresh hfree) hg1).processReport hg2

variable {rest : List Nat}

theorem NoOrphans.refreshLoop {currentTime : Int} :
    ∀ {nextDeadline deadline : Int} {g : SessionGroup ψ}, NoOrphans base g →
      refreshLoop C currentTime rest nextDeadline g = .ok (deadline, g') → NoOrphans base g' := by
  induction rest with
  | nil =>
    intro nextDeadline deadline g h hr
    cases hr
    exact h
  | cons sess rest ih =>
    intro nextDeadline deadline g h hr
    obtain ⟨object, _, hr⟩ := bind_eq_ok.mp hr
    simp only at hr
    split at hr
    · exact ih (h.setObject _ _) hr
    · obtain ⟨g1, hg1, hr⟩ := bind_eq_ok.mp hr
      exact ih ((h.setObject _ _).removeSession hg1) hr

theorem NoOrphans.reclockLoop {playbackTime : Int} :
    ∀ {g : SessionGroup ψ}, NoOrphans base g → reclockLoop C playbackTime rest g = .ok g' → NoOrphans base g' := by
  induction rest with
  | nil =>
    intro g h hr
    cases hr
    exact h
  | cons sess rest ih =>
    intro g h hr
    obtain ⟨object, _, hr⟩ := bind_eq_ok.mp hr
    simp only at hr
    split at hr
    · exact ih (h.setObject _ _) hr
    · obtain ⟨g1, hg1, hr⟩ := bind_eq_ok.mp hr
      exact ih ((h.setObject _ _).removeSession hg1) hr

/-! ## Runs -/

inductive Call where
  | routePacket (packet : Packet)
  | notifyRecvStream (sendSourceId : UInt32) (report : SendReport)
  | haltRecvStream (sendSourceId : UInt32)
  | refreshSessions (currentTime nextDeadline : Int)
  | reclockSessions (playbackTime : Int)

def call (C : SessionClass ψ) (config : GroupConfig) (g : SessionGroup ψ) : Call → Except Fault (SessionGroup ψ)
  | .routePacket packet => Prod.snd <$> g.routeTransportPacket C config packet
  | .notifyRecvStream sendSourceId report => Prod.snd <$> g.notifyRecvStream C sendSourceId report
  | .haltRecvStream sendSourceId => g.haltRecvStream sendSourceId
  | .refreshSessions currentTime nextDeadline =>
    Prod.snd <$> g.refreshSessions C currentTime nextDeadline
  | .reclockSessions playbackTime => g.reclockSessions C playbackTime

def CallStep (C : SessionClass ψ) (config : GroupConfig) (g : SessionGroup ψ) (c : Call) (g' : SessionGroup ψ) : Prop :=
  g.call C config c = .ok g'

/-- The call displaces no session: an SSRC that is moved to another route brings its session there, and
finds none. -/
def KeepsSessions (g : SessionGroup ψ) : Call → Prop
  | .notifyRecvStream sendSourceId report =>
    ∀ cname : Cname, report.senderCname = some cname.text → Routes.MovesSession g.router.routes.get sendSourceId cname ∧
        TargetFree g.router.routes.get sendSourceId cname
  | _ => True

/-- A new group; other groups have `base` sessions. -/
def Start (base : Int) (g : SessionGroup ψ) : Prop := g = { tracker := g.tracker } ∧ g.tracker.activeSessions = base

theorem NoOrphans.start (h : Start base g) : NoOrphans base g := by
  obtain ⟨hg, hbase⟩ := h
  rw [hg]
  refine ⟨⟨.empty, nodup_nil, rfl, ?_, ?_⟩, fun sess => ?_⟩
  · intro sess hmem
    cases hmem
  · show g.tracker.activeSessions = base + 0
    rw [hbase, Int.add_zero]
  · refine iff_of_false not_mem_nil ?_
    rintro ⟨id, route, hf, _⟩
    cases hf

theorem NoOrphans.call (h : NoOrphans base g) (hrouting : config.enableRouting = true) {c : Call}
    (hc : g.KeepsSessions c) (hr : g.call C config c = .ok g') : NoOrphans base g' := by
  cases c with
  | routePacket packet =>
    obtain ⟨⟨code, g1⟩, hr1, rfl⟩ := map_eq_ok hr
    exact h.routeTransportPacket hrouting hr1
  | notifyRecvStream sendSourceId report =>
    obtain ⟨⟨code, g1⟩, hr1, rfl⟩ := map_eq_ok hr
    exact h.notifyRecvStream hc hr1
  | haltRecvStream sendSourceId => exact h.haltRecvStream hr
  | refreshSessions currentTime nextDeadline =>
    obtain ⟨⟨deadline, g1⟩, hr1, rfl⟩ := map_eq_ok hr
    exact h.refreshLoop hr1
  | reclockSessions playbackTime => exact h.reclockLoop hr

/-- In every run in which no call displaces a session, the sessions of the list are the inputs of the
mixer and those that the router leads to, and the tracker counts them. -/
theorem noOrphans_of_reaches (hrouting : config.enableRouting = true)
    (h : Reaches (Start base) (CallStep C config) KeepsSessions g) :
    (∀ sess, sess ∈ g.sessions ↔ g.router.hasSession sess = true) ∧ g.mixerInputs = g.sessions ∧
      g.tracker.activeSessions = base + g.sessions.length := by
  have hinv : NoOrphans base g :=
    h.invariant (fun g => .start) fun g c g' h hc hstep => h.call hrouting hc hstep
  refine ⟨fun sess => ?_, hinv.mixer, hinv.counted⟩
  rw [hinv.serves, hinv.router.hasSession]

def rtpPacket (sourceId host : UInt32) : Packet :=
  { udp := some ⟨.ipv4 host 1, .ipv4 0 1⟩
    rtp := some ⟨sourceId, 0, 0, false, 10, [], [], []⟩ }

/-- The group after calls that all pass a test. -/
def callAll (C : SessionClass ψ) (config : GroupConfig) (test : SessionGroup ψ → Call → Bool) (calls : List Call)
    (g : SessionGroup ψ) : Option (SessionGroup ψ) :=
  calls.foldlM (fun g c => if test g c then (g.call C config c).toOption else none) g

theorem reaches_callAll {test : SessionGroup ψ → Call → Bool} {allowed : SessionGroup ψ → Call → Prop}
    (htest : ∀ g c, test g c = true → allowed g c) {calls : List Call} :
    ∀ {g g' : SessionGroup ψ}, Reaches (Start base) (CallStep C config) allowed g →
      callAll C config test calls g = some g' → Reaches (Start base) (CallStep C config) allowed g' := by
  induction calls with
  | nil =>
    intro g g' h hr
    cases hr
    exact h
  | cons c calls ih =>
    intro g g' h hr
    obtain ⟨g1, hg1, hr⟩ := bind_eq_some_iff.mp hr
    dsimp only at hg1
    split at hg1
    · next hc => exact ih (.step h (htest g c hc) (toOption_eq_some hg1)) hr
    · cases hg1

/-- If the SSRC is the main one of a route, the route has a session and an address; no route with the name has a
session. -/
def hasFreeTarget (g : SessionGroup ψ) : Call → Bool
  | .notifyRecvStream sourceId report => g.router.routes.entries.all fun e =>
      (e.2.mainSourceId ≠ some sourceId || e.2.sourceAddr ≠ .unspecified && e.2.session ≠ none) &&
        (some e.2.cname.text ≠ report.senderCname || e.2.session = none)
  | _ => true

theorem keepsSessions_of_hasFreeTarget (g : SessionGroup ψ) (c : Call) (h : g.hasFreeTarget c = true) :
    g.KeepsSessions c := by
  cases c with
  | notifyRecvStream sourceId report =>
    intro cname hname
    constructor
    · intro id route hf _ hmain _
      have hroute := all_eq_true.mp h ⟨id, route⟩ (AList.mem_lookup_iff.mp hf)
      simpa [hmain] using (Bool.and_eq_true_iff.mp hroute).1
    · intro _ _ _ _ _ _ id route hf hcname
      have hroute := all_eq_true.mp h ⟨id, route⟩ (AList.mem_lookup_iff.mp hf)
      simpa [hname, hcname] using (Bool.and_eq_true_iff.mp hroute).2
  | _ => trivial

def nameReport (c : UInt8) (hc : 0 ≠ c) : SendReport :=
  { senderCname := some (SessionRouter.letter c hc).text }

/-- A stream gets a name from RTCP and then another one, and a second stream ends. -/
theorem noOrphans_of_reaches_renamed : ∃ g : SessionGroup Unit, g.sessions = [0] ∧
    (∀ sess, sess ∈ g.sessions ↔ g.router.hasSession sess = true) := by
  have hrun : ((callAll plainSessions {} hasFreeTarget [.routePacket (rtpPacket 1 1), .routePacket (rtpPacket 2 2),
      .notifyRecvStream 1 (nameReport 97 (by decide)), .notifyRecvStream 1 (nameReport 98 (by decide)),
      .haltRecvStream 2] {}).any fun g => g.sessions = [0]) = true := by
    decide +kernel
  obtain ⟨g, hg, hs⟩ := (Option.any_eq_true _ _).mp hrun
  have hreach : Reaches (Start 0) (CallStep plainSessions {}) KeepsSessions g :=
    reaches_callAll keepsSessions_of_hasFreeTarget (.start ⟨rfl, rfl⟩) hg
  exact ⟨g, of_decide_eq_true hs, (noOrphans_of_reaches rfl hreach).1⟩

/-- Two streams with sessions turn out to have the same name. The session of the first is displaced
from the route, but stays in the list. -/
theorem mergedStreams_orphan : ∃ g : SessionGroup Unit,
    Reaches (Start 0) (CallStep plainSessions {}) (fun _ _ => True) g ∧
      0 ∈ g.sessions ∧ 0 ∈ g.mixerInputs ∧ g.router.hasSession 0 = false := by
  have hrun : ((callAll plainSessions {} (fun _ _ => true) [.routePacket (rtpPacket 1 1), .routePacket (rtpPacket 2 2),
      .notifyRecvStream 1 (nameReport 97 (by decide)),
      .notifyRecvStream 2 (nameReport 97 (by decide))] {}).any fun g =>
        0 ∈ g.sessions ∧ 0 ∈ g.mixerInputs ∧ g.router.hasSession 0 = false) = true := by
    decide +kernel
  obtain ⟨g, hg, hs⟩ := (Option.any_eq_true _ _).mp hrun
  exact ⟨g, reaches_callAll (fun _ _ _ => trivial) (.start ⟨rfl, rfl⟩) hg, of_decide_eq_true hs⟩

end SessionGroup
end Roc.Pipeline
