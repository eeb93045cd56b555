import RocToolkit.Pipeline.SessionRouter

/-!
# RocToolkit.Pipeline.RouteTable

The session router as a table of routes. `Represents r t n` says that the four hash maps of `r` index the
routes of `t` by their keys; `n` is the number of the next route. Every operation of the router is an
operation on the table, as long as it does not move a session that is not there.
-/

namespace Roc.Pipeline

open List

open Rtcp (CString Cname maxTextLen)

open Function (update update_apply update_comm update_eq_self_iff update_idem update_of_ne update_self)

open Route Dict

open Roc.Core (NodeMap)

variable {σ : Type}

namespace Route

def addressKeys (route : Route σ) : List SocketAddr :=
  if route.sourceAddr = .unspecified then [] else [route.sourceAddr]

def cnameKeys (route : Route σ) : List CString := if route.cname.text.length = 0 then [] else [route.cname.text]

def sessionKeys (route : Route σ) : List (Option σ) :=
  match route.session with
  | none => []
  | some session => [some session]

theorem mem_unless {κ : Type} {p : κ → Prop} [DecidablePred p] {key k : κ} :
    k ∈ (if p key then [] else [key]) ↔ key = k ∧ ¬ p k := by
  split
  · next h => simp only [not_mem_nil, false_iff, not_and, not_not]; rintro rfl; exact h
  · next h =>
    rw [mem_singleton]
    exact ⟨fun he => ⟨he.symm, he ▸ h⟩, fun he => he.1.symm⟩

variable {route : Route σ}

theorem mem_addressKeys {addr : SocketAddr} :
    addr ∈ route.addressKeys ↔ route.sourceAddr = addr ∧ addr ≠ .unspecified :=
  mem_unless (p := fun addr => addr = SocketAddr.unspecified)

theorem mem_cnameKeys {cname : CString} : cname ∈ route.cnameKeys ↔ route.cname.text = cname ∧ cname.length ≠ 0 :=
  mem_unless (p := fun cname : CString => cname.length = 0)

theorem mem_sessionKeys {session : Option σ} :
    session ∈ route.sessionKeys ↔ route.session = session ∧ session ≠ none := by
  unfold sessionKeys
  cases hs : route.session with
  | none => simp only [not_mem_nil, false_iff, not_and, not_not]; exact fun h => h.symm
  | some s =>
    rw [mem_singleton]
    exact ⟨fun he => ⟨he.symm, he ▸ Option.some_ne_none s⟩, fun he => he.1.symm⟩

end Route

abbrev Routes (σ : Type) := Nat → Option (Route σ)

namespace SessionRouter

variable [DecidableEq σ]

structure Represents (r : SessionRouter σ) (t : Routes σ) (n : Nat) : Prop where
  routes : r.routes.get = t
  next : r.nextRoute = n
  arena : r.arena = []
  source : Indexes Route.sources t r.sourceRouteMap.get
  address : Indexes Route.addressKeys t r.addressRouteMap.get
  cname : Indexes Route.cnameKeys t r.cnameRouteMap.get
  session : Indexes Route.sessionKeys t r.sessionRouteMap.get

section
variable {r r' : SessionRouter σ} {t : Routes σ} {n id : Nat} {route : Route σ} {sourceId : UInt32}

theorem alloc_of_arena (h : r.arena = []) : r.alloc = (true, r) := by
  unfold SessionRouter.alloc
  rw [h]

theorem Represents.routeAt (h : r.Represents t n) (hf : t id = some route) : r.route id = .ok route := by
  unfold SessionRouter.route
  rw [h.routes, hf]

theorem Represents.get_setRoute (h : r.Represents t n) (route : Route σ) :
    (r.setRoute id route).routes.get = update t id (some route) := by
  rw [← h.routes]
  exact get_insert _ _ _

/-! ## Operations on the nodes of a route -/

theorem Represents.setRoute (h : r.Represents t n) (hf : t id = some route) (route' : Route σ)
    (hsrc : route'.sources = route.sources)
    (haddr : route'.sourceAddr = route.sourceAddr) (hcname : route'.cname = route.cname)
    (hsess : route'.session = route.session) : (r.setRoute id route').Represents (update t id (some route')) n := by
  refine ⟨h.get_setRoute _, h.next, h.arena, h.source.keep hf fun k => ?_,
    h.address.keep hf fun k => ?_, h.cname.keep hf fun k => ?_, h.session.keep hf fun k => ?_⟩
  · rw [hsrc]
  · rw [mem_addressKeys, mem_addressKeys, haddr]
  · rw [mem_cnameKeys, mem_cnameKeys, hcname]
  · rw [mem_sessionKeys, mem_sessionKeys, hsess]

section
variable {κ : Type} [DecidableEq κ] {m : NodeMap κ Nat} {key : κ}

theorem insertFresh_ok (hn : m.get key = none) : insertFresh m key id = .ok (m.insert key id) := by
  unfold insertFresh
  rw [hn]

theorem insertNode_ok (hn : m.get key = none) (hid : ∀ k, m.get k ≠ some id) :
    insertNode m key id = .ok (m.insert key id) := by
  have hmember : isMember m id = false := by
    refine List.any_eq_false.mpr fun entry hentry heq => hid entry.1 ?_
    rw [← of_decide_eq_true heq]
    exact AList.mem_lookup_iff.mpr hentry
  unfold insertNode
  rw [hmember]
  exact insertFresh_ok hn

end

section
variable (h : r.Represents t n) (hf : t id = some route)
include h hf

theorem Represents.addSource (hn : ∀ i route, t i = some route → sourceId ∉ route.sources) :
    ∃ r', r.addSource id sourceId = .ok (true, r') ∧ r'.Represents
      (update t id (some { route with sources := route.sources ++ [sourceId] })) n := by
  have hnone := h.source.eq_none.mpr hn
  refine ⟨{ r.setRoute id { route with sources := route.sources ++ [sourceId] } with
    sourceRouteMap := r.sourceRouteMap.insert sourceId id }, ?_, ?_⟩
  · unfold SessionRouter.addSource
    simp only [alloc_of_arena h.arena, h.routeAt hf, insertFresh_ok hnone, ok_bind, pure_eq_ok]
  · refine ⟨h.get_setRoute _, h.next, h.arena, ?_, h.address.same hf rfl, h.cname.same hf rfl, h.session.same hf rfl⟩
    rw [NodeMap.get_insert]
    refine h.source.gain hf hnone fun k => ?_
    rw [mem_append, mem_singleton]
    exact or_comm

theorem Represents.attachCname (hempty : route.cname.text.length = 0) {cname : Cname}
    (hne : cname.text.length ≠ 0) (hn : ∀ i route, t i = some route → route.cname.text ≠ cname.text) :
    ∃ r', r.attachCname id cname.text = .ok (true, r') ∧
      r'.Represents (update t id (some { route with cname })) n := by
  have hnone : r.cnameRouteMap.get cname.text = none :=
    h.cname.eq_none.mpr fun i route hf hk => hn i route hf (mem_cnameKeys.mp hk).1
  have hid := h.cname.not_member hf fun k hk => (mem_cnameKeys.mp hk).2 ((mem_cnameKeys.mp hk).1 ▸ hempty)
  refine ⟨{ r.setRoute id { route with cname } with
    cnameRouteMap := r.cnameRouteMap.insert cname.text id }, ?_, ?_⟩
  · unfold SessionRouter.attachCname
    rw [dif_pos cname.fits]
    simp only [alloc_of_arena h.arena, h.routeAt hf, insertNode_ok hnone hid, ok_bind, pure_eq_ok]
  · refine ⟨h.get_setRoute _, h.next, h.arena, h.source.same hf rfl, h.address.same hf rfl, ?_, h.session.same hf rfl⟩
    rw [NodeMap.get_insert]
    refine h.cname.gain hf hnone fun k => ?_
    rw [mem_cnameKeys, mem_cnameKeys]
    constructor
    · exact fun hk => .inl hk.1.symm
    · rintro (rfl | ⟨rfl, hk⟩)
      · exact ⟨rfl, hne⟩
      · exact absurd hempty hk

end

section
variable (ha : r.arena = []) (hf : r.route id = .ok route)
include ha hf

theorem insertAddress_ok (hn : r.addressRouteMap.get route.sourceAddr = none)
    (hid : ∀ k, r.addressRouteMap.get k ≠ some id) : r.insertAddress id =
      .ok (true, { r with addressRouteMap := r.addressRouteMap.insert route.sourceAddr id }) := by
  unfold insertAddress
  simp only [alloc_of_arena ha, hf, insertNode_ok hn hid, ok_bind, pure_eq_ok]

theorem insertSession_ok (hn : r.sessionRouteMap.get route.session = none)
    (hid : ∀ k, r.sessionRouteMap.get k ≠ some id) : r.insertSession id =
      .ok (true, { r with sessionRouteMap := r.sessionRouteMap.insert route.session id }) := by
  unfold insertSession
  simp only [alloc_of_arena ha, hf, insertNode_ok hn hid, ok_bind, pure_eq_ok]

end

theorem Represents.route_setRoute (h : r.Represents t n) (route : Route σ) :
    (r.setRoute id route).route id = .ok route := by
  unfold SessionRouter.route
  rw [h.get_setRoute, update_self]

section
variable (h : r.Represents t n) (hf : t id = some route)
include h hf

theorem Represents.attachAddress (hempty : route.sourceAddr = .unspecified) {addr : SocketAddr}
    (hn : addr ≠ .unspecified → ∀ i route, t i = some route → route.sourceAddr ≠ addr) :
    ∃ r', r.attachAddress id addr = .ok (true, r') ∧
      r'.Represents (update t id (some { route with sourceAddr := addr })) n := by
  unfold SessionRouter.attachAddress
  by_cases hne : addr = .unspecified
  · rw [if_pos hne, hne, ← hempty, update_eq_self_iff.mpr hf.symm]
    exact ⟨r, rfl, h⟩
  · have hnone : r.addressRouteMap.get addr = none :=
      h.address.eq_none.mpr fun i route hf hk => hn hne i route hf (mem_addressKeys.mp hk).1
    rw [if_neg hne, h.routeAt hf, ok_bind, insertAddress_ok (r := r.setRoute id _) h.arena
        (h.route_setRoute { route with sourceAddr := addr }) hnone
        (h.address.not_member hf fun k hk => (mem_addressKeys.mp hk).2 ((mem_addressKeys.mp hk).1 ▸ hempty))]
    refine ⟨_, rfl, h.get_setRoute _, h.next, h.arena, h.source.same hf rfl, ?_,
      h.cname.same hf rfl, h.session.same hf rfl⟩
    show Indexes _ _ (r.addressRouteMap.insert addr id).get
    rw [NodeMap.get_insert]
    refine h.address.gain hf hnone fun k => ?_
    rw [mem_addressKeys, mem_addressKeys]
    constructor
    · exact fun hk => .inl hk.1.symm
    · rintro (rfl | ⟨rfl, hk⟩)
      · exact ⟨rfl, hne⟩
      · exact absurd hempty hk

theorem Represents.attachSession (hempty : route.session = none) (session : Option σ)
    (hn : session ≠ none → ∀ i route, t i = some route → route.session ≠ session) :
    ∃ r', r.attachSession id session = .ok (true, r') ∧
      r'.Represents (update t id (some { route with session })) n := by
  unfold SessionRouter.attachSession
  by_cases hne : session = none
  · rw [if_pos hne, hne, ← hempty, update_eq_self_iff.mpr hf.symm]
    exact ⟨r, rfl, h⟩
  · have hnone : r.sessionRouteMap.get session = none :=
      h.session.eq_none.mpr fun i route hf hk => hn hne i route hf (mem_sessionKeys.mp hk).1
    rw [if_neg hne, h.routeAt hf, ok_bind, insertSession_ok (r := r.setRoute id _) h.arena
        (h.route_setRoute { route with session }) hnone
        (h.session.not_member hf fun k hk => (mem_sessionKeys.mp hk).2 ((mem_sessionKeys.mp hk).1 ▸ hempty))]
    refine ⟨_, rfl, h.get_setRoute _, h.next, h.arena, h.source.same hf rfl,
      h.address.same hf rfl, h.cname.same hf rfl, ?_⟩
    show Indexes _ _ (r.sessionRouteMap.insert session id).get
    rw [NodeMap.get_insert]
    refine h.session.gain hf hnone fun k => ?_
    rw [mem_sessionKeys, mem_sessionKeys]
    constructor
    · exact fun hk => .inl hk.1.symm
    · rintro (rfl | ⟨rfl, hk⟩)
      · exact ⟨rfl, hne⟩
      · exact absurd hempty hk

end

/-! ## Removing routes and sources -/

section
variable {κ : Type} [DecidableEq κ] {m : NodeMap κ Nat}

theorem get_removeNode {key k : κ} :
    (removeNode m key id).get k = if k = key ∧ m.get key = some id then none else m.get k := by
  unfold removeNode
  split
  · next h => simp only [NodeMap.get_erase, update_apply, h, and_true]
  · next h => simp only [h, and_false, if_false]

variable {keys : Route σ → List κ} {key : κ}

section
variable (h : Indexes keys t m.get) (hf : t id = some route) (hk : ∀ k ∈ keys route, k = key)
include h hf hk

theorem erase_removeNode : Indexes keys (update t id none) (removeNode m key id).get := by
  refine Indexes.erase h hf fun k => ?_
  rw [get_removeNode]
  by_cases hkey : k = key
  · subst hkey
    simp only [Indexes.mem_iff h hf, true_and]
  · have hnot : k ∉ keys route := fun hm => hkey (hk k hm)
    simp [hkey, hnot]

theorem lose_removeNode {route' : Route σ} (hk' : keys route' = []) :
    Indexes keys (update t id (some route')) (removeNode m key id).get := by
  have := Indexes.add (erase_removeNode h hf hk) (update_self id none t) hk'
  rwa [update_idem] at this

end
end

theorem get_removeNodes (h : Indexes sources t r.sourceRouteMap.get) (hf : t id = some route)
    {sources : List UInt32} (hs : ∀ k ∈ sources, k ∈ route.sources) (k : UInt32) :
    (sources.foldr (fun sourceId m => removeNode m sourceId id) r.sourceRouteMap).get k =
      if k ∈ sources then none else r.sourceRouteMap.get k := by
  induction sources with
  | nil => simp
  | cons sourceId sources ih =>
    have ih := ih (forall_mem_cons.mp hs).2
    rw [foldr_cons, get_removeNode, ih]
    by_cases hk : k = sourceId
    · subst hk
      have hget := h.find hf (hs k mem_cons_self)
      rw [ih, hget]
      by_cases hm : k ∈ sources <;> simp [hm]
    · simp [hk]

section
variable (h : r.Represents t n) (hf : t id = some route)
include h hf

theorem Represents.removeRoute : ∃ r', r.removeRoute id = .ok r' ∧ r'.Represents (update t id none) n := by
  unfold SessionRouter.removeRoute
  rw [h.routeAt hf]
  refine ⟨_, rfl, ?_, h.next, h.arena, ?_, ?_, ?_, ?_⟩
  · rw [← h.routes]
    exact get_erase _ _
  · exact h.source.erase hf (get_removeNodes h.source hf fun _ hk => hk)
  · exact erase_removeNode h.address hf fun k hk => (mem_addressKeys.mp hk).1.symm
  · exact erase_removeNode h.cname hf fun k hk => (mem_cnameKeys.mp hk).1.symm
  · exact erase_removeNode h.session hf fun k hk => (mem_sessionKeys.mp hk).1.symm

theorem Represents.dropSource (hm : sourceId ∈ route.sources) (hnd : route.sources.Nodup) :
    ∃ r', r.dropSource id sourceId = .ok r' ∧ r'.Represents
      (update t id (some { route with sources := route.sources.erase sourceId })) n := by
  unfold SessionRouter.dropSource
  rw [h.routeAt hf]
  refine ⟨_, rfl, h.get_setRoute _, h.next, h.arena, ?_, h.address.same hf rfl,
    h.cname.same hf rfl, h.session.same hf rfl⟩
  show Indexes _ _ (r.sourceRouteMap.erase sourceId).get
  rw [NodeMap.get_erase]
  exact h.source.lose hf hm fun k => hnd.mem_erase_iff

theorem Represents.collectRoute : ∃ r', r.collectRoute id = .ok r' ∧
      r'.Represents (if route.sources = [] then update t id none else t) n := by
  unfold SessionRouter.collectRoute
  rw [h.routeAt hf, ok_bind]
  split
  · exact h.removeRoute hf
  · exact ⟨r, rfl, h⟩

end

theorem move_node {κ : Type} [DecidableEq κ] {m : NodeMap κ Nat} {keys : Route σ → List κ} {k k' : κ}
    {oldId newId : Nat} {oldRoute newRoute : Route σ} (oldRoute' newRoute' : Route σ) (h : Indexes keys t m.get)
    (hold : t oldId = some oldRoute) (hnew : t newId = some newRoute) (hne : oldId ≠ newId)
    (hk : keys oldRoute = [k]) (hk' : ∀ x ∈ keys newRoute, x = k') (hko : keys oldRoute' = [])
    (hkn : keys newRoute' = [k]) :
    (removeNode (removeNode m k oldId) k' newId).get k = none ∧
      (∀ x, (removeNode (removeNode m k oldId) k' newId).get x ≠ some newId) ∧
      Indexes keys (update (update t newId (some newRoute')) oldId (some oldRoute'))
        ((removeNode (removeNode m k oldId) k' newId).insert k newId).get := by
  have h1 := lose_removeNode h hold (fun x hx => by rwa [hk, mem_singleton] at hx) hko
  have hnew1 : update t oldId (some oldRoute') newId = some newRoute := by
    rw [update_of_ne hne.symm]
    exact hnew
  have h2 := erase_removeNode h1 hnew1 hk'
  have hnone : (removeNode (removeNode m k oldId) k' newId).get k = none := by
    refine h2.eq_none.mpr fun i route hf hm => ?_
    rw [update_apply] at hf
    split at hf
    · cases hf
    · rw [update_apply] at hf
      split at hf
      · cases hf
        rw [hko] at hm
        cases hm
      · next ho =>
        refine ho (h.unique hf hold hm ?_)
        rw [hk]
        exact mem_cons_self
  refine ⟨hnone, fun x hx => ?_, ?_⟩
  · obtain ⟨route, hf, -⟩ := (h2 x newId).mp hx
    rw [update_self] at hf
    cases hf
  have h3 := h2.add_one (i := newId) (update_self _ _ _) hnone hkn
  rw [update_idem, update_comm hne] at h3
  rw [NodeMap.get_insert]
  exact h3

section
variable {oldId newId : Nat} {oldRoute newRoute : Route σ}

theorem get_setRoutes (hr : r.routes.get = t) (oldRoute newRoute : Route σ) :
    ((r.setRoute newId newRoute).setRoute oldId oldRoute).routes.get =
      update (update t newId (some newRoute)) oldId (some oldRoute) := by
  rw [← hr, ← get_insert r.routes]
  exact get_insert _ _ _

theorem route_setRoutes (hr : r.routes.get = t) (hne : oldId ≠ newId) (oldRoute newRoute : Route σ) :
    ((r.setRoute newId newRoute).setRoute oldId oldRoute).route newId = .ok newRoute := by
  unfold SessionRouter.route
  rw [get_setRoutes hr, update_of_ne hne.symm, update_self]

theorem keep_two {κ : Type} [DecidableEq κ] {m : κ → Option Nat} {keys : Route σ → List κ}
    (h : Indexes keys t m) (hold : t oldId = some oldRoute) (hnew : t newId = some newRoute)
    (hne : oldId ≠ newId) {oldRoute' newRoute' : Route σ} (hko : keys oldRoute' = keys oldRoute)
    (hkn : keys newRoute' = keys newRoute) :
    Indexes keys (update (update t newId (some newRoute')) oldId (some oldRoute')) m := by
  have h1 : Indexes keys (update t newId (some newRoute')) m := h.keep hnew fun k => by rw [hkn]
  have hold1 : update t newId (some newRoute') oldId = some oldRoute := by
    rw [update_of_ne hne]
    exact hold
  exact h1.keep hold1 fun k => by rw [hko]

section
variable (h : r.Represents t n) (hold : t oldId = some oldRoute) (hnew : t newId = some newRoute) (hne : oldId ≠ newId)
include h hold hnew hne

theorem Represents.moveAddress (haddr : oldRoute.sourceAddr ≠ .unspecified) :
    ∃ r', r.moveAddress oldId newId = .ok (true, r') ∧ r'.Represents
      (update (update t newId (some { newRoute with sourceAddr := oldRoute.sourceAddr }))
        oldId (some { oldRoute with sourceAddr := .unspecified })) n := by
  obtain ⟨hnone, hid, haddress⟩ := move_node { oldRoute with sourceAddr := .unspecified }
    { newRoute with sourceAddr := oldRoute.sourceAddr } h.address hold hnew hne
    (if_neg haddr) (fun k hk => (mem_addressKeys.mp hk).1.symm) (if_pos rfl) (if_neg haddr)
  unfold SessionRouter.moveAddress
  rw [h.routeAt hold, ok_bind, h.routeAt hnew, ok_bind]
  refine ⟨_, insertAddress_ok h.arena (route_setRoutes h.routes hne _ _) hnone hid,
    get_setRoutes h.routes _ _, h.next, h.arena, ?_, haddress, ?_, ?_⟩
  · exact keep_two h.source hold hnew hne rfl rfl
  · exact keep_two h.cname hold hnew hne rfl rfl
  · exact keep_two h.session hold hnew hne rfl rfl

theorem Represents.moveSession (hsess : oldRoute.session ≠ none) :
    ∃ r', r.moveSession oldId newId = .ok (true, r') ∧ r'.Represents
      (update (update t newId (some { newRoute with session := oldRoute.session }))
        oldId (some { oldRoute with session := none })) n := by
  obtain ⟨session, hs⟩ := Option.ne_none_iff_exists'.mp hsess
  have hkeys : ∀ route : Route σ, route.session = oldRoute.session → route.sessionKeys = [oldRoute.session] := by
    intro route hroute
    unfold sessionKeys
    rw [hroute, hs]
  obtain ⟨hnone, hid, hsession⟩ := move_node { oldRoute with session := none }
    { newRoute with session := oldRoute.session } h.session hold hnew hne
    (hkeys _ rfl) (fun k hk => (mem_sessionKeys.mp hk).1.symm) rfl (hkeys _ rfl)
  unfold SessionRouter.moveSession
  rw [h.routeAt hold, ok_bind, h.routeAt hnew, ok_bind]
  refine ⟨_, insertSession_ok h.arena (route_setRoutes h.routes hne _ _) hnone hid,
    get_setRoutes h.routes _ _, h.next, h.arena, ?_, ?_, ?_, hsession⟩
  · exact keep_two h.source hold hnew hne rfl rfl
  · exact keep_two h.address hold hnew hne rfl rfl
  · exact keep_two h.cname hold hnew hne rfl rfl

/-- Session and address go from one route to another, whatever the other one had. -/
theorem Represents.moveRouteSession (haddr : oldRoute.sourceAddr ≠ .unspecified) (hsess : oldRoute.session ≠ none) :
    ∃ r', r.moveRouteSession oldId newId = .ok (.ok, r') ∧ r'.Represents (update (update t newId
        (some { newRoute with sourceAddr := oldRoute.sourceAddr, session := oldRoute.session }))
        oldId (some { oldRoute with sourceAddr := .unspecified, session := none })) n := by
  obtain ⟨r1, hr1, h1⟩ := h.moveAddress hold hnew hne haddr
  have hold1 := update_self oldId (some { oldRoute with sourceAddr := .unspecified })
    (update t newId (some { newRoute with sourceAddr := oldRoute.sourceAddr }))
  have hnew1 : update (update t newId (some { newRoute with sourceAddr := oldRoute.sourceAddr }))
      oldId (some { oldRoute with sourceAddr := .unspecified }) newId =
        some { newRoute with sourceAddr := oldRoute.sourceAddr } := by
    rw [update_of_ne hne.symm, update_self]
  obtain ⟨r2, hr2, h2⟩ := h1.moveSession hold1 hnew1 hne hsess
  refine ⟨r2, ?_, ?_⟩
  · unfold SessionRouter.moveRouteSession
    rw [hr1, ok_bind]
    simp only [hr2, ok_bind, pure_eq_ok]
  · rw [update_comm hne.symm, update_idem, update_comm hne, update_idem] at h2
    exact h2

end
end

/-! ## New routes -/

theorem Represents.create (h : r.Represents t n) (hn : t n = none) :
    { r with routes := r.routes.insert r.nextRoute {}, nextRoute := r.nextRoute + 1 }.Represents
      (update t n (some {})) (n + 1) := by
  refine ⟨?_, congrArg (· + 1) h.next, h.arena, h.source.add hn rfl, h.address.add hn (if_pos rfl),
    h.cname.add hn (if_pos rfl), h.session.add hn rfl⟩
  rw [← h.routes, ← h.next]
  exact get_insert _ _ _

theorem Represents.attachName (h : r.Represents t n) (hf : t id = some route)
    (hempty : route.cname = .empty) {cname : Option Cname}
    (hn : ∀ c ∈ cname, c.text.length ≠ 0 ∧ ∀ i route, t i = some route → route.cname.text ≠ c.text) :
    ∃ r', r.attachName id (cname.map Cname.text) = .ok (true, r') ∧
      r'.Represents (update t id (some { route with cname := cname.getD .empty })) n := by
  cases cname with
  | none =>
    rw [Option.getD_none, ← hempty, update_eq_self_iff.mpr hf.symm]
    exact ⟨r, rfl, h⟩
  | some c =>
    obtain ⟨hne, hall⟩ := hn c rfl
    exact h.attachCname hf (by rw [hempty]; rfl) hne hall

theorem Represents.createRoute (h : r.Represents t n) (hn : t n = none) (addr : SocketAddr)
    (cname : Option Cname) (session : Option σ) (hsource : ∀ i route, t i = some route → sourceId ∉ route.sources)
    (haddr : addr ≠ .unspecified → ∀ i route, t i = some route → route.sourceAddr ≠ addr)
    (hcname : ∀ c ∈ cname, c.text.length ≠ 0 ∧ ∀ i route, t i = some route → route.cname.text ≠ c.text)
    (hsession : session ≠ none → ∀ i route, t i = some route → route.session ≠ session) :
    ∃ r', r.createRoute sourceId addr (cname.map Cname.text) session = .ok (.ok, r') ∧
      r'.Represents (update t n (some { session, sourceAddr := addr
                                        cname := cname.getD .empty, mainSourceId := some sourceId
                                        sources := [sourceId] })) (n + 1) := by
  -- every step writes route `n`, so a fact about the other routes is one about all but that one
  have hother : ∀ {q : Route σ → Prop} {route0 : Route σ}, (∀ i route, t i = some route → q route) →
      q route0 → ∀ i route, update t n (some route0) i = some route → q route := by
    intro q route0 hall h0 i route hf
    rw [update_apply] at hf
    split at hf
    · cases hf
      exact h0
    · exact hall i route hf
  have hself : ∀ route0 : Route σ, update t n (some route0) n = some route0 := fun route0 =>
    update_self n _ t
  obtain ⟨r1, hr1, h1⟩ := (h.create hn).addSource (hself _) (hother hsource (not_mem_nil (a := sourceId)))
  rw [update_idem] at h1
  have h2 := h1.setRoute (hself _) { mainSourceId := some sourceId, sources := [sourceId] } rfl rfl rfl rfl
  rw [update_idem] at h2
  obtain ⟨r3, hr3, h3⟩ := h2.attachName (hself _) rfl fun c hc =>
    ⟨(hcname c hc).1, hother (hcname c hc).2 fun he => (hcname c hc).1 (by rw [← he]; rfl)⟩
  rw [update_idem] at h3
  obtain ⟨r4, hr4, h4⟩ := h3.attachAddress (hself _) rfl fun hne =>
    hother (haddr hne) fun he => hne he.symm
  rw [update_idem] at h4
  obtain ⟨r5, hr5, h5⟩ := h4.attachSession (hself _) rfl session fun hne =>
    hother (hsession hne) fun he => hne he.symm
  rw [update_idem] at h5
  refine ⟨r5, ?_, h5⟩
  unfold SessionRouter.createRoute
  simp only [alloc_of_arena h.arena, h.next] at hr1 ⊢
  simp only [hr1, ok_bind, orRemove, h1.routeAt (hself _)]
  rw [show ({ mainSourceId := some sourceId, sources := [] ++ [sourceId] } : Route σ) =
    { mainSourceId := some sourceId, sources := [sourceId] } from rfl]
  simp only [hr3, hr4, hr5, ok_bind, pure_eq_ok]

end
end SessionRouter

/-! ## What the calls do to the table -/

def Route.drop (route : Route σ) (sourceId : UInt32) : Route σ :=
  { route with sources := route.sources.erase sourceId }

/-- The route after `unlink_source`. -/
def Route.unlink (route : Route σ) (sourceId : UInt32) : Route σ :=
  { route.drop sourceId with
    mainSourceId := if route.mainSourceId = some sourceId then none else route.mainSourceId }

structure Route.Good (route : Route σ) : Prop where
  nonempty : route.sources ≠ []
  nodup : route.sources.Nodup
  main : ∀ sourceId, route.mainSourceId = some sourceId → sourceId ∈ route.sources

namespace Routes

def put (t : Routes σ) (id : Nat) (route : Route σ) : Routes σ :=
  update t id (if route.sources = [] then none else some route)

def NoSource (t : Routes σ) (sourceId : UInt32) : Prop := ∀ i route, t i = some route → sourceId ∉ route.sources

def NoCname (t : Routes σ) (cname : Cname) : Prop := ∀ i route, t i = some route → route.cname.text ≠ cname.text

/-- `link_source` moves the SSRC to another route. -/
def Relinks (t : Routes σ) (route : Route σ) (cname : Cname) : Prop :=
  route.cname.text ≠ cname.text ∧ (route.cname.text.length ≠ 0 ∨ ¬ t.NoCname cname)

def MovesSession (t : Routes σ) (sourceId : UInt32) (cname : Cname) : Prop :=
  ∀ id route, t id = some route → sourceId ∈ route.sources → route.mainSourceId = some sourceId →
    t.Relinks route cname → route.sourceAddr ≠ .unspecified ∧ route.session ≠ none

structure Sound (t : Routes σ) (n : Nat) : Prop where
  good : ∀ id route, t id = some route → route.Good
  fresh : ∀ id, n ≤ id → t id = none

/-- The route that an SSRC with this CNAME belongs to, with the SSRC in it: a new one or the one that
has the CNAME. -/
inductive Target (t : Routes σ) (n : Nat) (sourceId : UInt32) (cname : Cname) :
    Nat → Route σ → Nat → Prop where
  | new (h : t.NoCname cname) : Target t n sourceId cname n
      { cname, mainSourceId := some sourceId, sources := [sourceId] } (n + 1)
  | known {id : Nat} {route : Route σ} (hf : t id = some route)
      (hc : route.cname.text = cname.text) : Target t n sourceId cname id
        { route with sources := route.sources ++ [sourceId] } n

def NoAddress (t : Routes σ) (addr : SocketAddr) : Prop := ∀ i route, t i = some route → route.sourceAddr ≠ addr

def NoSession (t : Routes σ) (session : σ) : Prop := ∀ i route, t i = some route → route.session ≠ some session

/-- `unlink_source`. -/
inductive Unlinked (t : Routes σ) (sourceId : UInt32) : Routes σ → Prop where
  | none (hs : t.NoSource sourceId) : Unlinked t sourceId t
  | some {id : Nat} {route : Route σ} (hf : t id = some route) (hs : sourceId ∈ route.sources) :
      Unlinked t sourceId (t.put id (route.unlink sourceId))

/-- The route that `add_session` creates. -/
def sessionRoute (session : σ) (sourceId : UInt32) (addr : SocketAddr) : Route σ :=
  { session := some session, sourceAddr := addr, mainSourceId := some sourceId, sources := [sourceId] }

/-- `add_session`. -/
inductive Added (t : Routes σ) (n : Nat) (session : σ) (sourceId : UInt32) (addr : SocketAddr) :
    StatusCode → Routes σ → Nat → Prop where
  | conflict (h : (addr ≠ .unspecified ∧ ¬ t.NoAddress addr) ∨ ¬ t.NoSession session) :
      Added t n session sourceId addr .conflict t n
  | attach {id : Nat} {route : Route σ} (haddr : addr ≠ .unspecified → t.NoAddress addr)
      (hsess : t.NoSession session) (hf : t id = some route) (hs : sourceId ∈ route.sources)
      (hnoaddr : route.sourceAddr = .unspecified) (hnosess : route.session = none) :
      Added t n session sourceId addr .ok
        (update t id (some { route with sourceAddr := addr, session := some session })) n
  | create {t' : Routes σ} (haddr : addr ≠ .unspecified → t.NoAddress addr)
      (hsess : t.NoSession session) (hu : Unlinked t sourceId t')
      (hother : ∀ id route, t id = some route → sourceId ∈ route.sources →
        ¬ (route.sourceAddr = .unspecified ∧ route.session = none)) :
      Added t n session sourceId addr .ok (update t' n (some (sessionRoute session sourceId addr))) (n + 1)

/-- `remove_session`. -/
inductive Removed (t : Routes σ) (session : σ) : Routes σ → Prop where
  | none (hs : t.NoSession session) : Removed t session t
  | some {id : Nat} {route : Route σ} (hf : t id = some route) (hs : route.session = some session) :
      Removed t session (update t id none)

/-- `link_source`. -/
inductive Linked (t : Routes σ) (n : Nat) (sourceId : UInt32) (cname : Cname) :
    Routes σ → Nat → Prop where
  | same {id : Nat} {route : Route σ} (hf : t id = some route) (hs : sourceId ∈ route.sources)
      (hc : route.cname.text = cname.text) : Linked t n sourceId cname t n
  | name {id : Nat} {route : Route σ} (hf : t id = some route) (hs : sourceId ∈ route.sources)
      (hempty : route.cname.text.length = 0) (hc : t.NoCname cname) :
      Linked t n sourceId cname (update t id (some { route with cname })) n
  | place {id n' : Nat} {route : Route σ} (hs : t.NoSource sourceId)
      (ht : Target t n sourceId cname id route n') :
      Linked t n sourceId cname (update t id (some route)) n'
  | moveOther {oldId newId n' : Nat} {oldRoute newRoute : Route σ} (hf : t oldId = some oldRoute)
      (hs : sourceId ∈ oldRoute.sources) (hc : oldRoute.cname.text ≠ cname.text)
      (ht : Target t n sourceId cname newId newRoute n')
      (hmain : oldRoute.mainSourceId ≠ some sourceId) :
      Linked t n sourceId cname
        (put (update t newId (some newRoute)) oldId (oldRoute.drop sourceId)) n'
  | moveMain {oldId newId n' : Nat} {oldRoute newRoute : Route σ} (hf : t oldId = some oldRoute)
      (hs : sourceId ∈ oldRoute.sources) (hc : oldRoute.cname.text ≠ cname.text)
      (ht : Target t n sourceId cname newId newRoute n')
      (hmain : oldRoute.mainSourceId = some sourceId) :
      Linked t n sourceId cname
        (put (update t newId (some { newRoute with session := oldRoute.session
                                                   sourceAddr := oldRoute.sourceAddr
                                                   mainSourceId := some sourceId }))
          oldId { oldRoute.drop sourceId with session := none, sourceAddr := .unspecified
                                              mainSourceId := none }) n'

end Routes

namespace SessionRouter

open Routes (put NoSource NoCname NoAddress NoSession Sound Target Linked Unlinked Added Removed)

variable [DecidableEq σ] {r r' : SessionRouter σ} {t : Routes σ} {n n' id : Nat} {route : Route σ}
  {sourceId : UInt32} {cname : Cname}

section
variable (h : r.Represents t n)
include h

theorem Represents.noSource : r.sourceRouteMap.get sourceId = none ↔ t.NoSource sourceId := h.source.eq_none

theorem Represents.findSource (hf : t id = some route)
    (hs : sourceId ∈ route.sources) : r.sourceRouteMap.get sourceId = some id := h.source.find hf hs

theorem Represents.noCname (hne : cname.text.length ≠ 0) : r.cnameRouteMap.get cname.text = none ↔ t.NoCname cname := by
  rw [h.cname.eq_none]
  constructor
  · intro hall i route hf he
    exact hall i route hf (mem_cnameKeys.mpr ⟨he, hne⟩)
  · intro hall i route hf hk
    exact hall i route hf (mem_cnameKeys.mp hk).1

theorem Represents.findCname (hf : t id = some route)
    (hc : route.cname.text = cname.text) (hne : cname.text.length ≠ 0) :
    r.cnameRouteMap.get cname.text = some id :=
  h.cname.find hf (mem_cnameKeys.mpr ⟨hc, hne⟩)

theorem Represents.place (hfresh : t n = none) (hne : cname.text.length ≠ 0)
    (hs : t.NoSource sourceId) (ht : Target t n sourceId cname id route n')
    (relink : SessionRouter σ → Except Fault (StatusCode × SessionRouter σ)) :
    ∃ r', r.linkWith relink sourceId cname.text = .ok (.ok, r') ∧
      r'.Represents (update t id (some route)) n' := by
  unfold linkWith
  rw [h.noSource.mpr hs]
  cases ht with
  | new hc =>
    rw [(h.noCname hne).mpr hc]
    exact h.createRoute hfresh .unspecified (some cname) none hs (fun he => absurd rfl he)
      (fun c hc' => by cases hc'; exact ⟨hne, hc⟩) (fun he => absurd rfl he)
  | known hf hc =>
    rw [h.findCname hf hc hne]
    obtain ⟨r', hr', h'⟩ := h.addSource hf hs
    refine ⟨r', ?_, h'⟩
    simp only [hr', ok_bind, orFail, pure_eq_ok]

end

section
variable {oldId newId : Nat} {oldRoute newRoute : Route σ}

section
variable (ht : Target t n sourceId cname newId newRoute n')
include ht

theorem Target.ne (hfresh : t n = none)
    (hf : t oldId = some oldRoute) (hc : oldRoute.cname.text ≠ cname.text) : oldId ≠ newId := by
  rintro rfl
  cases ht with
  | new => rw [hfresh] at hf; cases hf
  | known hf' hc' =>
    rw [hf] at hf'
    cases hf'
    exact hc hc'

theorem Target.drop (hf : t oldId = some oldRoute) (hc : oldRoute.cname.text ≠ cname.text) :
    Target (update t oldId (some (oldRoute.drop sourceId))) n sourceId cname newId newRoute n' := by
  cases ht with
  | new h =>
    refine .new fun i route hf' => ?_
    rw [update_apply] at hf'
    split at hf'
    · cases hf'
      exact hc
    · exact h i route hf'
  | known hf' hc' =>
    refine .known ?_ hc'
    rw [update_apply, if_neg]
    · exact hf'
    · rintro rfl
      rw [hf] at hf'
      cases hf'
      exact hc hc'

end

theorem NoSource.of_drop (h : r.Represents t n) (hf : t oldId = some oldRoute)
    (hs : sourceId ∈ oldRoute.sources) (hnd : oldRoute.sources.Nodup) :
    NoSource (update t oldId (some (oldRoute.drop sourceId))) sourceId := by
  intro i route hf' hm
  rw [update_apply] at hf'
  split at hf'
  · cases hf'
    exact (hnd.mem_erase_iff.mp hm).1 rfl
  · next hi => exact hi (h.source.unique hf' hf hm hs)

theorem put_eq (t : Routes σ) (id : Nat) (route : Route σ) :
    put t id route = if route.sources = [] then update (update t id (some route)) id none
      else update t id (some route) := by
  unfold put
  split
  · rw [update_idem]
  · rfl

/-- The SSRC has come to its new route; it was not the main one of the old. -/
theorem Represents.moveOther (h : r.Represents t n) (hf : t oldId = some oldRoute)
    (hmain : oldRoute.mainSourceId ≠ some sourceId) :
    ∃ r', r.moveMainSource oldId sourceId = .ok (.ok, r') ∧ r'.Represents (put t oldId oldRoute) n := by
  obtain ⟨r', hr', h'⟩ := h.collectRoute hf
  refine ⟨r', ?_, ?_⟩
  · unfold moveMainSource
    simp only [h.routeAt hf, ok_bind, if_pos hmain, hr', pure_eq_ok]
  · have hself : update t oldId (some oldRoute) = t := update_eq_self_iff.mpr hf.symm
    rw [put_eq, hself]
    exact h'

theorem Represents.moveMain (h : r.Represents t n) (hold : t oldId = some oldRoute)
    (hnew : t newId = some newRoute) (hne : oldId ≠ newId) (hs : sourceId ∈ newRoute.sources)
    (hmain : oldRoute.mainSourceId = some sourceId) (haddr : oldRoute.sourceAddr ≠ .unspecified)
    (hsess : oldRoute.session ≠ none) :
    ∃ r', r.moveMainSource oldId sourceId = .ok (.ok, r') ∧ r'.Represents
      (put (update t newId (some { newRoute with session := oldRoute.session
                                                 sourceAddr := oldRoute.sourceAddr
                                                 mainSourceId := some sourceId }))
        oldId { oldRoute with session := none, sourceAddr := .unspecified, mainSourceId := none }) n := by
  obtain ⟨r1, hr1, h1⟩ := h.moveRouteSession hold hnew hne haddr hsess
  generalize ht1 : update (update t newId _) oldId _ = t1 at h1
  have hnew1 : t1 newId = some { newRoute with
      sourceAddr := oldRoute.sourceAddr, session := oldRoute.session } := by
    rw [← ht1, update_of_ne hne.symm, update_self]
  have h2 := h1.setRoute hnew1 { newRoute with
    sourceAddr := oldRoute.sourceAddr, session := oldRoute.session, mainSourceId := some sourceId }
    rfl rfl rfl rfl
  have hold2 : update t1 newId (some { newRoute with
      sourceAddr := oldRoute.sourceAddr, session := oldRoute.session, mainSourceId := some sourceId })
      oldId = some { oldRoute with sourceAddr := .unspecified, session := none } := by
    rw [update_of_ne hne, ← ht1, update_self]
  have h3 := h2.setRoute hold2
    { oldRoute with sourceAddr := .unspecified, session := none, mainSourceId := none } rfl rfl rfl rfl
  obtain ⟨r4, hr4, h4⟩ := h3.collectRoute (update_self _ _ _)
  refine ⟨r4, ?_, ?_⟩
  · unfold moveMainSource
    simp only [h.routeAt hold, ok_bind, hmain, ne_eq, not_true_eq_false, if_false,
      h.findSource hnew hs, hr1, h1.routeAt hnew1, h2.routeAt hold2, hr4, pure_eq_ok]
  · rw [← ht1, update_comm hne] at h4
    rw [put_eq]
    simp only [update_idem] at h4 ⊢
    exact h4

/-- `relink_source_`: the SSRC leaves its route and comes to another one. -/
theorem Represents.relink (h : r.Represents t n) (hfresh : t n = none) (hne : cname.text.length ≠ 0)
    (hf : t oldId = some oldRoute) (hs : sourceId ∈ oldRoute.sources) (hnd : oldRoute.sources.Nodup)
    (hc : oldRoute.cname.text ≠ cname.text) (ht : Target t n sourceId cname newId newRoute n')
    (hmove : oldRoute.mainSourceId = some sourceId →
      oldRoute.sourceAddr ≠ .unspecified ∧ oldRoute.session ≠ none) :
    ∃ r' t', relinkSource (linkWith (fun _ => .error .outOfFuel) · sourceId cname.text) r sourceId =
      .ok (.ok, r') ∧ Linked t n sourceId cname t' n' ∧ r'.Represents t' n' := by
  have hids := Target.ne ht hfresh hf hc
  obtain ⟨r1, hr1, h1⟩ := h.dropSource hf hs hnd
  have hfresh1 : update t oldId (some (oldRoute.drop sourceId)) n = none := by
    rw [update_of_ne]
    · exact hfresh
    · rintro rfl
      rw [hfresh] at hf
      cases hf
  obtain ⟨r2, hr2, h2⟩ := Represents.place (t := update t oldId (some (oldRoute.drop sourceId))) h1
    hfresh1 hne (NoSource.of_drop h hf hs hnd) (Target.drop ht hf hc) fun _ => .error .outOfFuel
  have hold2 : update (update t oldId (some (oldRoute.drop sourceId))) newId (some newRoute) oldId =
      some (oldRoute.drop sourceId) := by
    rw [update_of_ne hids, update_self]
  have hrelink : ∀ {r'}, r2.moveMainSource oldId sourceId = .ok (.ok, r') →
      relinkSource (linkWith (fun _ => .error .outOfFuel) · sourceId cname.text) r sourceId =
        .ok (.ok, r') := by
    intro r' hm
    unfold relinkSource
    simp only [h.findSource hf hs, hr1, hr2, ok_bind, ne_eq, not_true_eq_false, if_false, hm]
  by_cases hmain : oldRoute.mainSourceId = some sourceId
  · obtain ⟨haddr, hsess⟩ := hmove hmain
    have hsnew : sourceId ∈ newRoute.sources := by
      cases ht with
      | new => exact mem_cons_self
      | known => exact mem_append_right _ mem_cons_self
    obtain ⟨r3, hr3, h3⟩ := h2.moveMain hold2 (update_self _ _ _) hids hsnew hmain haddr hsess
    refine ⟨r3, _, hrelink hr3, .moveMain hf hs hc ht hmain, ?_⟩
    unfold put at h3 ⊢
    rw [update_idem, update_comm hids, update_idem] at h3
    exact h3
  · obtain ⟨r3, hr3, h3⟩ := h2.moveOther hold2 hmain
    refine ⟨r3, _, hrelink hr3, .moveOther hf hs hc ht hmain, ?_⟩
    unfold put at h3 ⊢
    rw [update_comm hids, update_idem] at h3
    exact h3

end

theorem linkWith_relink {relink : SessionRouter σ → Except Fault (StatusCode × SessionRouter σ)}
    (h : r.Represents t n) (hne : cname.text.length ≠ 0) (hf : t id = some route)
    (hs : sourceId ∈ route.sources) (hrelink : t.Relinks route cname) :
    r.linkWith relink sourceId cname.text = relink r := by
  unfold linkWith
  rw [h.findSource hf hs]
  cases hc : r.cnameRouteMap.get cname.text with
  | none =>
    have hlen : route.cname.text.length ≠ 0 := hrelink.2.resolve_right fun hn => hn ((h.noCname hne).mp hc)
    simp only [h.routeAt hf, ok_bind, ne_eq, hlen, not_false_eq_true, if_true]
  | some id' =>
    obtain ⟨route', hf', hk⟩ := (h.cname _ _).mp hc
    have hids : ¬ id = id' := by
      rintro rfl
      rw [hf] at hf'
      cases hf'
      exact hrelink.1 (mem_cnameKeys.mp hk).1
    simp only [hids, if_false]

theorem exists_target (t : Routes σ) (n : Nat) (sourceId : UInt32) (cname : Cname) :
    ∃ id route n', Target t n sourceId cname id route n' := by
  by_cases hc : t.NoCname cname
  · exact ⟨_, _, _, .new hc⟩
  · unfold NoCname at hc
    push Not at hc
    obtain ⟨id, route, hf, hc⟩ := hc
    exact ⟨id, _, n, .known hf hc⟩

section
variable (h : r.Represents t n)
include h

theorem Represents.linkSource (hsound : Sound t n) (hne : cname.text.length ≠ 0)
    (hmove : t.MovesSession sourceId cname) :
    ∃ r' t' n', r.linkSource sourceId (some cname.text) = .ok (.ok, r') ∧
      Linked t n sourceId cname t' n' ∧ r'.Represents t' n' := by
  have hfresh := hsound.fresh n (Nat.le_refl n)
  obtain ⟨newId, newRoute, n', ht⟩ := exists_target t n sourceId cname
  have hlink : r.linkSource sourceId (some cname.text) = r.linkWith
      (relinkSource (linkWith (fun _ => .error .outOfFuel) · sourceId cname.text) · sourceId)
      sourceId cname.text := by
    unfold SessionRouter.linkSource
    have hfits := Nat.not_lt.mpr cname.fits
    simp only [hne, if_false, gt_iff_lt, hfits]
  rw [hlink]
  by_cases hs : t.NoSource sourceId
  · obtain ⟨r', hr', h'⟩ := h.place hfresh hne hs ht _
    exact ⟨r', _, n', hr', .place hs ht, h'⟩
  · unfold NoSource at hs
    push Not at hs
    obtain ⟨oldId, oldRoute, hf, hs⟩ := hs
    have hnd := (hsound.good oldId oldRoute hf).nodup
    by_cases hc : oldRoute.cname.text = cname.text
    · refine ⟨r, t, n, ?_, .same hf hs hc, h⟩
      unfold linkWith
      simp only [h.findSource hf hs, h.findCname hf hc hne, if_true]
    · by_cases hrelink : t.Relinks oldRoute cname
      · obtain ⟨r', t', hr', hlinked, h'⟩ := h.relink hfresh hne hf hs hnd hc ht fun hmain =>
          hmove oldId oldRoute hf hs hmain hrelink
        refine ⟨r', t', n', ?_, hlinked, h'⟩
        rw [linkWith_relink h hne hf hs hrelink]
        exact hr'
      · have hlen : oldRoute.cname.text.length = 0 := by
          by_contra hlen
          exact hrelink ⟨hc, .inl hlen⟩
        have hno : t.NoCname cname := by
          by_contra hno
          exact hrelink ⟨hc, .inr hno⟩
        obtain ⟨r', hr', h'⟩ := h.attachCname hf hlen hne hno
        refine ⟨r', _, n, ?_, .name hf hs hlen hno, h'⟩
        unfold linkWith
        simp only [h.findSource hf hs, (h.noCname hne).mpr hno, h.routeAt hf, ok_bind, ne_eq, hlen,
          not_true_eq_false, if_false, hr', orFail, pure_eq_ok]

theorem Represents.unlinkSource (hsound : Sound t n) (sourceId : UInt32) :
    ∃ r' t', r.unlinkSource sourceId = .ok r' ∧ Unlinked t sourceId t' ∧ r'.Represents t' n := by
  by_cases hs : t.NoSource sourceId
  · refine ⟨r, t, ?_, .none hs, h⟩
    unfold SessionRouter.unlinkSource
    rw [h.noSource.mpr hs]
    rfl
  · unfold NoSource at hs
    push Not at hs
    obtain ⟨id, route, hf, hs⟩ := hs
    obtain ⟨r1, hr1, h1⟩ := h.dropSource hf hs (hsound.good id route hf).nodup
    have hf1 := update_self id (some (route.drop sourceId)) t
    have hclear : ∃ r2, (if (route.drop sourceId).mainSourceId = some sourceId then
        r1.setRoute id { route.drop sourceId with mainSourceId := none } else r1) = r2 ∧
        r2.Represents (update t id (some (route.unlink sourceId))) n := by
      unfold unlink
      by_cases hmain : route.mainSourceId = some sourceId
      · rw [if_pos (show (route.drop sourceId).mainSourceId = some sourceId from hmain), if_pos hmain]
        have h2 := h1.setRoute hf1 { route.drop sourceId with mainSourceId := none } rfl rfl rfl rfl
        rw [update_idem] at h2
        exact ⟨_, rfl, h2⟩
      · rw [if_neg (show ¬ (route.drop sourceId).mainSourceId = some sourceId from hmain), if_neg hmain]
        exact ⟨_, rfl, h1⟩
    obtain ⟨r2, hr2, h2⟩ := hclear
    obtain ⟨r3, hr3, h3⟩ := h2.collectRoute (update_self _ _ _)
    refine ⟨r3, _, ?_, .some hf hs, ?_⟩
    · unfold SessionRouter.unlinkSource
      simp only [h.findSource hf hs, hr1, ok_bind]
      rw [h1.routeAt hf1, ok_bind, hr2]
      exact hr3
    · rw [put_eq]
      exact h3

theorem Represents.noAddress {addr : SocketAddr} (hne : addr ≠ .unspecified) :
    r.addressRouteMap.get addr = none ↔ t.NoAddress addr := by
  rw [h.address.eq_none]
  refine forall₃_congr fun i route hf => ?_
  rw [mem_addressKeys]
  simp [hne]

theorem Represents.noSession {session : σ} : r.sessionRouteMap.get (some session) = none ↔ t.NoSession session := by
  rw [h.session.eq_none]
  refine forall₃_congr fun i route hf => ?_
  rw [mem_sessionKeys]
  simp

end

theorem Unlinked.keeps (hu : Unlinked t sourceId t') {q : Route σ → Prop}
    (hq : ∀ route, q route → q (route.unlink sourceId)) (hall : ∀ i route, t i = some route → q route) :
    ∀ i route, t' i = some route → q route := by
  cases hu with
  | none => exact hall
  | @some id route0 hf hs =>
    intro i route hf'
    unfold put at hf'
    rw [update_apply] at hf'
    split at hf'
    · split at hf'
      · cases hf'
      · cases hf'
        exact hq _ (hall id route0 hf)
    · exact hall i route hf'

theorem Unlinked.noSource (h : r.Represents t n) (hsound : Sound t n)
    (hu : Unlinked t sourceId t') : t'.NoSource sourceId := by
  cases hu with
  | none hs => exact hs
  | @some id route hf hs =>
    intro i route' hf' hm
    unfold put at hf'
    rw [update_apply] at hf'
    split at hf'
    · split at hf'
      · cases hf'
      · cases hf'
        exact ((hsound.good id route hf).nodup.mem_erase_iff.mp hm).1 rfl
    · next hi => exact hi (h.source.unique hf' hf hm hs)

theorem Unlinked.fresh (hsound : Sound t n) (hu : Unlinked t sourceId t') (id : Nat)
    (hid : n ≤ id) : t' id = none := by
  cases hu with
  | none => exact hsound.fresh id hid
  | @some id' route hf hs =>
    unfold put
    rw [update_apply, if_neg]
    · exact hsound.fresh id hid
    · rintro rfl
      rw [hsound.fresh id hid] at hf
      cases hf

theorem Represents.addSession (h : r.Represents t n) (hsound : Sound t n) (session : σ)
    (sourceId : UInt32) (addr : SocketAddr) :
    ∃ r' code t' n', r.addSession session sourceId addr = .ok (code, r') ∧
      Added t n session sourceId addr code t' n' ∧ r'.Represents t' n' := by
  unfold SessionRouter.addSession
  by_cases hconf1 : addr ≠ .unspecified ∧ (r.addressRouteMap.get addr).isSome
  · refine ⟨r, .conflict, t, n, ?_, .conflict (.inl ⟨hconf1.1, fun hno => ?_⟩), h⟩
    · rw [if_pos hconf1]
      rfl
    · rw [(h.noAddress hconf1.1).mpr hno] at hconf1
      cases hconf1.2
  rw [if_neg hconf1]
  have haddr : addr ≠ .unspecified → t.NoAddress addr := by
    intro hne
    rw [← h.noAddress hne]
    cases hg : r.addressRouteMap.get addr with
    | none => rfl
    | some id => exact absurd ⟨hne, by rw [hg]; rfl⟩ hconf1
  by_cases hconf2 : (r.sessionRouteMap.get (some session)).isSome
  · refine ⟨r, .conflict, t, n, ?_, .conflict (.inr fun hno => ?_), h⟩
    · rw [if_pos hconf2]
      rfl
    · rw [h.noSession.mpr hno] at hconf2
      cases hconf2
  rw [if_neg hconf2]
  have hsess : t.NoSession session := by
    rw [← h.noSession]
    cases hg : r.sessionRouteMap.get (some session) with
    | none => rfl
    | some id => rw [hg] at hconf2; exact absurd rfl hconf2
  have hcreate : ∀ {r1 : SessionRouter σ} {t1 : Routes σ}, r1.Represents t1 n →
      Unlinked t sourceId t1 → ∃ r', r1.createRoute sourceId addr none (some session) = .ok (.ok, r') ∧
        r'.Represents (update t1 n (some (Routes.sessionRoute session sourceId addr))) (n + 1) := by
    intro r1 t1 h1 hu
    exact h1.createRoute (Unlinked.fresh hsound hu n (Nat.le_refl n)) addr none (some session)
      (Unlinked.noSource h hsound hu) (fun hne => Unlinked.keeps hu (q := fun route => route.sourceAddr ≠ addr)
        (fun _ hq => hq) (haddr hne)) (fun c hc => by cases hc)
      (fun _ => Unlinked.keeps hu (q := fun route => route.session ≠ some session) (fun _ hq => hq) hsess)
  cases hg : r.sourceRouteMap.get sourceId with
  | none =>
    have hno := h.noSource.mp hg
    obtain ⟨r', hr', h'⟩ := hcreate h (.none hno)
    exact ⟨r', .ok, _, _, hr', .create haddr hsess (.none hno) fun id route hf hs =>
      absurd hs (hno id route hf), h'⟩
  | some id =>
    obtain ⟨route, hf, hs⟩ := (h.source _ _).mp hg
    simp only [h.routeAt hf, ok_bind]
    by_cases hempty : route.sourceAddr = .unspecified ∧ route.session = none
    · obtain ⟨r1, hr1, h1⟩ := h.attachAddress hf hempty.1 haddr
      obtain ⟨r2, hr2, h2⟩ := h1.attachSession (update_self _ _ _) hempty.2
        (some session) (fun _ i route' hf' => by
          rw [update_apply] at hf'
          split at hf'
          · cases hf'
            intro he
            rw [hempty.2] at he
            cases he
          · exact hsess i route' hf')
      rw [update_idem] at h2
      refine ⟨r2, .ok, _, n, ?_, .attach haddr hsess hf hs hempty.1 hempty.2, h2⟩
      rw [if_pos hempty]
      simp only [hr1, hr2, ok_bind, orRemove, pure_eq_ok]
    · obtain ⟨r1, t1, hr1, hu, h1⟩ := h.unlinkSource hsound sourceId
      obtain ⟨r', hr', h'⟩ := hcreate h1 hu
      refine ⟨r', .ok, _, _, ?_, .create haddr hsess hu fun id' route' hf' hs' => ?_, h'⟩
      · rw [if_neg hempty, hr1, ok_bind]
        exact hr'
      · cases h.source.unique hf hf' hs hs'
        rw [hf] at hf'
        cases hf'
        exact hempty

theorem Represents.removeSession (h : r.Represents t n) (session : σ) :
    ∃ r' t', r.removeSession session = .ok r' ∧ Removed t session t' ∧ r'.Represents t' n := by
  unfold SessionRouter.removeSession
  cases hg : r.sessionRouteMap.get (some session) with
  | none => exact ⟨r, t, rfl, .none (h.noSession.mp hg), h⟩
  | some id =>
    obtain ⟨route, hf, hs⟩ := (h.session _ _).mp hg
    obtain ⟨r', hr', h'⟩ := h.removeRoute hf
    exact ⟨r', _, hr', .some hf (mem_sessionKeys.mp hs).1, h'⟩

end SessionRouter
end Roc.Pipeline
