import RocToolkit.Core.NodeMap
import RocToolkit.Rtcp.Reporter

/-!
# RocToolkit.Pipeline.SessionRouter

`pipeline::ReceiverSessionRouter`. A route is known by a number of its own, and the hash maps lead from
a key to that number. The maps are intrusive: a node is in a map if its present key leads to its route
there, since the code takes a node out of a map before it changes the key. Allocations take their
outcome from `arena`. The operations are given up to what happens in the buckets of the hash maps; `callOn` is a call
with the buckets.
-/

namespace Roc.Pipeline

open Rtcp (CString Cname maxTextLen)

open Roc.Core (NodeMap)

/-- `ReceiverSessionRouter::Route`. `main_source_id` is `none` without `has_main_source_id`; the nodes
of `source_nodes` are their SSRCs. -/
structure Route (σ : Type) where
  session : Option σ := none
  sourceAddr : SocketAddr := .unspecified
  cname : Cname := .empty
  mainSourceId : Option UInt32 := none
  sources : List UInt32 := []
deriving DecidableEq, Repr

structure SessionRouter (σ : Type) [DecidableEq σ] where
  routes : Dict Nat (Route σ) := ∅
  nextRoute : Nat := 0
  sourceRouteMap : NodeMap UInt32 Nat := ∅
  addressRouteMap : NodeMap SocketAddr Nat := ∅
  cnameRouteMap : NodeMap CString Nat := ∅
  -- the key is a `SharedPtr`, which may be null
  sessionRouteMap : NodeMap (Option σ) Nat := ∅
  arena : List Bool := []

namespace SessionRouter

variable {σ : Type} [DecidableEq σ]

def alloc (r : SessionRouter σ) : Bool × SessionRouter σ :=
  match r.arena with
  | [] => (true, r)
  | outcome :: arena => (outcome, { r with arena })

def route (r : SessionRouter σ) (id : Nat) : Except Fault (Route σ) :=
  match r.routes.get id with
  | none => .error .dangling
  | some route => .ok route

def setRoute (r : SessionRouter σ) (id : Nat) (route : Route σ) : SessionRouter σ :=
  { r with routes := r.routes.insert id route }

section
variable {κ : Type} [DecidableEq κ] (m : NodeMap κ Nat) (key : κ) (id : Nat)

/-- `Hashmap::insert` of a new node, once there is memory for it. -/
def insertFresh : Except Fault (NodeMap κ Nat) :=
  match m.get key with
  | none => .ok (m.insert key id)
  | some _ => .error (.panic "hashmap: attempt to insert an element with duplicate key")

/-- The node of the route is in the map, under whatever key. -/
def isMember : Bool := m.entries.entries.any fun entry => entry.2 = id

/-- `Hashmap::insert` of the node of a route, once there is memory for it. -/
def insertNode : Except Fault (NodeMap κ Nat) :=
  if isMember m id then
    .error (.panic "hashmap: attempt to insert an element which is already a member of this hashmap")
  else insertFresh m key id

/-- `Hashmap::remove`, if the node is in the map. -/
def removeNode : NodeMap κ Nat := if m.get key = some id then m.erase key else m

end

/-! ## Lookup -/

def numRoutes (r : SessionRouter σ) : Nat := r.routes.keys.length

def findBySource (r : SessionRouter σ) (sourceId : UInt32) : Except Fault (Option σ) :=
  match r.sourceRouteMap.get sourceId with
  | none => .ok none
  | some id => do return (← r.route id).session

def findByAddress (r : SessionRouter σ) (sourceAddr : SocketAddr) : Except Fault (Option σ) :=
  if sourceAddr = .unspecified then .error (.panic "!source_addr")
  else
    match r.addressRouteMap.get sourceAddr with
    | none => .ok none
    | some id => do return (← r.route id).session

def hasSession (r : SessionRouter σ) (session : σ) : Bool := (r.sessionRouteMap.get (some session)).isSome

/-! ## Routes and their nodes -/

/-- A new node of `source_nodes`, and its place in the map. -/
def addSource (r : SessionRouter σ) (id : Nat) (sourceId : UInt32) : Except Fault (Bool × SessionRouter σ) := do
  match r.alloc with
  | (false, r) => return (false, r)
  | (true, r) =>
    let route ← r.route id
    match r.alloc with
    | (false, r) => return (false, { r with sourceRouteMap := r.sourceRouteMap.refuse })
    | (true, r) =>
      let m ← insertFresh r.sourceRouteMap sourceId id
      return (true, { r.setRoute id { route with sources := route.sources ++ [sourceId] } with
        sourceRouteMap := m })

/-- `address_route_map_.insert(route.address_node)`. -/
def insertAddress (r : SessionRouter σ) (id : Nat) : Except Fault (Bool × SessionRouter σ) := do
  match r.alloc with
  | (false, r) => return (false, { r with addressRouteMap := r.addressRouteMap.refuse })
  | (true, r) =>
    let m ← insertNode r.addressRouteMap (← r.route id).sourceAddr id
    return (true, { r with addressRouteMap := m })

/-- `session_route_map_.insert(route.session_node)`. -/
def insertSession (r : SessionRouter σ) (id : Nat) : Except Fault (Bool × SessionRouter σ) := do
  match r.alloc with
  | (false, r) => return (false, { r with sessionRouteMap := r.sessionRouteMap.refuse })
  | (true, r) =>
    let m ← insertNode r.sessionRouteMap (← r.route id).session id
    return (true, { r with sessionRouteMap := m })

def attachAddress (r : SessionRouter σ) (id : Nat) (sourceAddr : SocketAddr) :
    Except Fault (Bool × SessionRouter σ) := do
  if sourceAddr = .unspecified then return (true, r)
  (r.setRoute id { ← r.route id with sourceAddr }).insertAddress id

def attachSession (r : SessionRouter σ) (id : Nat) (session : Option σ) : Except Fault (Bool × SessionRouter σ) := do
  if session = none then return (true, r)
  (r.setRoute id { ← r.route id with session }).insertSession id

def attachCname (r : SessionRouter σ) (id : Nat) (cname : CString) : Except Fault (Bool × SessionRouter σ) := do
  if hfit : cname.length ≤ maxTextLen then
    let route ← r.route id
    match r.alloc with
    | (false, r) => return (false, { r with cnameRouteMap := r.cnameRouteMap.refuse })
    | (true, r) =>
      let m ← insertNode r.cnameRouteMap cname id
      return (true, { r.setRoute id { route with cname := ⟨cname, hfit⟩ } with cnameRouteMap := m })
  else throw (.panic "strlen(cname) > rtcp::MaxCnameLen")

def attachName (r : SessionRouter σ) (id : Nat) (cname : Option CString) : Except Fault (Bool × SessionRouter σ) :=
  match cname with
  | none => .ok (true, r)
  | some cname => r.attachCname id cname

/-- `remove_route_`. -/
def removeRoute (r : SessionRouter σ) (id : Nat) : Except Fault (SessionRouter σ) := do
  let route ← r.route id
  return { r with
    -- the nodes are taken from the back
    sourceRouteMap := route.sources.foldr (fun sourceId m => removeNode m sourceId id) r.sourceRouteMap
    cnameRouteMap := removeNode r.cnameRouteMap route.cname.text id
    addressRouteMap := removeNode r.addressRouteMap route.sourceAddr id
    sessionRouteMap := removeNode r.sessionRouteMap route.session id
    routes := r.routes.erase id }

/-- The end of a step that may have run out of memory. -/
def orRemove (id : Nat) (step : Bool × SessionRouter σ)
    (next : SessionRouter σ → Except Fault (StatusCode × SessionRouter σ)) :
    Except Fault (StatusCode × SessionRouter σ) :=
  match step with
  | (false, r) => do return (.noMem, ← r.removeRoute id)
  | (true, r) => next r

/-- `create_route_`. -/
def createRoute (r : SessionRouter σ) (sourceId : UInt32) (sourceAddr : SocketAddr)
    (cname : Option CString) (session : Option σ) : Except Fault (StatusCode × SessionRouter σ) := do
  match r.alloc with
  | (false, r) => return (.noMem, r)
  | (true, r) =>
    let id := r.nextRoute
    let r := { r with routes := r.routes.insert id {}, nextRoute := id + 1 }
    orRemove id (← r.addSource id sourceId) fun r => do
      let r := r.setRoute id { ← r.route id with mainSourceId := some sourceId }
      orRemove id (← r.attachName id cname) fun r => do
        orRemove id (← r.attachAddress id sourceAddr) fun r => do
          orRemove id (← r.attachSession id session) fun r => return (.ok, r)

/-- `collect_route_`. -/
def collectRoute (r : SessionRouter σ) (id : Nat) : Except Fault (SessionRouter σ) := do
  if (← r.route id).sources = [] then r.removeRoute id else return r

/-- The first half of `move_route_session_`. -/
def moveAddress (r : SessionRouter σ) (oldId newId : Nat) : Except Fault (Bool × SessionRouter σ) := do
  let oldRoute ← r.route oldId
  let newRoute ← r.route newId
  let m := removeNode r.addressRouteMap oldRoute.sourceAddr oldId
  let r := { r with addressRouteMap := removeNode m newRoute.sourceAddr newId }
  let r := r.setRoute newId { newRoute with sourceAddr := oldRoute.sourceAddr }
  (r.setRoute oldId { oldRoute with sourceAddr := .unspecified }).insertAddress newId

/-- The second half of `move_route_session_`. -/
def moveSession (r : SessionRouter σ) (oldId newId : Nat) : Except Fault (Bool × SessionRouter σ) := do
  let oldRoute ← r.route oldId
  let newRoute ← r.route newId
  let m := removeNode r.sessionRouteMap oldRoute.session oldId
  let r := { r with sessionRouteMap := removeNode m newRoute.session newId }
  let r := r.setRoute newId { newRoute with session := oldRoute.session }
  (r.setRoute oldId { oldRoute with session := none }).insertSession newId

def moveRouteSession (r : SessionRouter σ) (oldId newId : Nat) : Except Fault (StatusCode × SessionRouter σ) := do
  match ← r.moveAddress oldId newId with
  | (false, r) => return (.noMem, r)
  | (true, r) =>
    match ← r.moveSession oldId newId with
    | (false, r) => return (.noMem, r)
    | (true, r) => return (.ok, r)

/-! ## Sources -/

def dropSource (r : SessionRouter σ) (id : Nat) (sourceId : UInt32) : Except Fault (SessionRouter σ) := do
  let route ← r.route id
  return { r.setRoute id { route with sources := route.sources.erase sourceId } with
    sourceRouteMap := r.sourceRouteMap.erase sourceId }

def unlinkSource (r : SessionRouter σ) (sourceId : UInt32) : Except Fault (SessionRouter σ) := do
  match r.sourceRouteMap.get sourceId with
  | none => return r
  | some id =>
    let r ← r.dropSource id sourceId
    let route ← r.route id
    let r := if route.mainSourceId = some sourceId then r.setRoute id { route with mainSourceId := none }
      else r
    r.collectRoute id

/-- What `relink_source_` does once the SSRC is in its new route. -/
def moveMainSource (r : SessionRouter σ) (oldId : Nat) (sourceId : UInt32) :
    Except Fault (StatusCode × SessionRouter σ) := do
  if (← r.route oldId).mainSourceId ≠ some sourceId then return (.ok, ← r.collectRoute oldId)
  match r.sourceRouteMap.get sourceId with
  | none => throw (.panic "!new_node")
  | some newId =>
    let (code, r) ← r.moveRouteSession oldId newId
    if code ≠ .ok then return (code, ← r.removeRoute newId)
    let r := r.setRoute newId { ← r.route newId with mainSourceId := some sourceId }
    let r := r.setRoute oldId { ← r.route oldId with mainSourceId := none }
    return (.ok, ← r.collectRoute oldId)

/-- `relink_source_`; `link` is `link_source`. -/
def relinkSource (link : SessionRouter σ → Except Fault (StatusCode × SessionRouter σ))
    (r : SessionRouter σ) (sourceId : UInt32) : Except Fault (StatusCode × SessionRouter σ) := do
  match r.sourceRouteMap.get sourceId with
  | none => throw (.panic "!old_node")
  | some oldId =>
    let (code, r) ← link (← r.dropSource oldId sourceId)
    if code ≠ .ok then return (code, r)
    r.moveMainSource oldId sourceId

def orFail (step : Bool × SessionRouter σ) : StatusCode × SessionRouter σ :=
  match step with
  | (false, r) => (.noMem, r)
  | (true, r) => (.ok, r)

/-- The body of `link_source`; `relink` is `relink_source_`. -/
def linkWith (relink : SessionRouter σ → Except Fault (StatusCode × SessionRouter σ))
    (r : SessionRouter σ) (sourceId : UInt32) (cname : CString) :
    Except Fault (StatusCode × SessionRouter σ) :=
  match r.sourceRouteMap.get sourceId, r.cnameRouteMap.get cname with
  | none, none => r.createRoute sourceId .unspecified (some cname) none
  | some sourceRoute, some cnameRoute =>
    if sourceRoute = cnameRoute then .ok (.ok, r) else relink r
  | some sourceRoute, none => do
    if (← r.route sourceRoute).cname.text.length ≠ 0 then relink r
    else return orFail (← r.attachCname sourceRoute cname)
  | none, some cnameRoute => do return orFail (← r.addSource cnameRoute sourceId)

/-- `link_source`. The call inside `relink_source_` finds no route of the SSRC, so there is no third
one. -/
def linkSource (r : SessionRouter σ) (sourceId : UInt32) (cname : Option CString) :
    Except Fault (StatusCode × SessionRouter σ) := do
  match cname with
  | none => throw (.panic "!cname || !*cname")
  | some cname =>
    if cname.length = 0 then throw (.panic "!cname || !*cname")
    if cname.length > maxTextLen then throw (.panic "strlen(cname) > rtcp::MaxCnameLen")
    r.linkWith (relinkSource (linkWith (fun _ => .error .outOfFuel) · sourceId cname) · sourceId) sourceId cname

/-! ## Sessions -/

def addSession (r : SessionRouter σ) (session : σ) (sourceId : UInt32) (sourceAddr : SocketAddr) :
    Except Fault (StatusCode × SessionRouter σ) := do
  if sourceAddr ≠ .unspecified ∧ (r.addressRouteMap.get sourceAddr).isSome then
    return (.conflict, r)
  if (r.sessionRouteMap.get (some session)).isSome then return (.conflict, r)
  match r.sourceRouteMap.get sourceId with
  | none => r.createRoute sourceId sourceAddr none (some session)
  | some id =>
    let route ← r.route id
    if route.sourceAddr = .unspecified ∧ route.session = none then
      orRemove id (← r.attachAddress id sourceAddr) fun r => do
        orRemove id (← r.attachSession id (some session)) fun r => return (.ok, r)
    else (← r.unlinkSource sourceId).createRoute sourceId sourceAddr none (some session)

def removeSession (r : SessionRouter σ) (session : σ) : Except Fault (SessionRouter σ) :=
  match r.sessionRouteMap.get (some session) with
  | none => .ok r
  | some id => r.removeRoute id

end SessionRouter
end Roc.Pipeline
