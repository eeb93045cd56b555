import RocToolkit.Core.NodeMap

/-!
# RocToolkit.Node.Slots

What `node::Receiver` and `node::Sender` have in common (roc_node/receiver.cpp, roc_node/sender.cpp): the
slots of a node with their network ports, and the tasks of the network loop and of the pipeline loop that
they schedule and wait for. A task is one step here. Whether it succeeds is a choice of the environment,
except where the task itself decides: `RemovePort`, `DeleteSlot` and `QuerySlot` always succeed, and
`AddEndpoint` fails for an interface that has an endpoint or cannot have one.

Ports and pipeline slots are known by numbers that are not used again. `notMember` is the panic of the
intrusive lists for an element they do not have, and stands for any use of a port or pipeline slot that is
gone. The panic of the slot map when it has to grow is `growth`; `nodeCall` raises it at the end of the call.
-/

namespace Roc.Node

open Roc.Core (NodeMap Hashmap hashsumInt64)

/-! ## Addresses and URIs -/

/-- `address::Interface`; `Iface_Max` is their number. -/
inductive Interface where
  | invalid | consolidated | audioSource | audioRepair | audioControl
deriving DecidableEq, Repr

def Interface.all : List Interface := [.invalid, .consolidated, .audioSource, .audioRepair, .audioControl]

/-- `address::Protocol`. -/
inductive Protocol where
  | none | rtsp | rtp | rtpRs8mSource | rs8mRepair | rtpLdpcSource | ldpcRepair | rtcp
deriving DecidableEq, Repr

inductive AddrFamily where
  | ipv4 | ipv6
deriving DecidableEq, Repr

structure SocketAddr where
  family : AddrFamily
  host : Nat
  port : UInt16
deriving DecidableEq, Repr

/-- `netio::UdpConfig`. -/
structure UdpConfig where
  bindAddress : Option SocketAddr := none
  multicastInterface : String := ""
  enableReuseaddr : Bool := false
  enableNonBlocking : Bool := true
deriving DecidableEq, Repr

/-- What the nodes read of an `address::EndpointUri`: the result of `verify(Subset_Full)`, the protocol and
the port. -/
structure EndpointUri where
  verified : Bool
  proto : Protocol
  port : Int
deriving DecidableEq, Repr

/-- `EndpointUri::set_port`. -/
def EndpointUri.setPort (uri : EndpointUri) (port : Int) : Option EndpointUri :=
  if port = -1 then some { uri with port := -1 }
  else if port < 0 || port > 65535 then none
  else some { uri with port }

/-! ## The two loops -/

inductive Panic where
  | nullHandle
  | notMember
  | setPort
  | growth
deriving DecidableEq, Repr

structure EndpointId where
  slot : Nat
  iface : Interface
deriving DecidableEq, Repr

structure UdpPort where
  sending : Bool := false
  -- what it writes inbound packets to
  inbound : Option EndpointId := none
deriving DecidableEq, Repr

structure NetworkLoop where
  ports : Dict Nat UdpPort := ∅
  nextPort : Nat := 0

namespace NetworkLoop

variable (n : NetworkLoop)

/-- `Tasks::AddUdpPort`; `bound` is the address of the socket, if it could be opened. -/
def addUdpPort (bound : Option SocketAddr) : Option (Nat × SocketAddr) × NetworkLoop :=
  match bound with
  | none => (none, n)
  | some address =>
    (some (n.nextPort, address),
      { ports := n.ports.insert n.nextPort {}
        nextPort := n.nextPort + 1 })

def find (handle : Option Nat) : Except Panic (Nat × UdpPort) :=
  match handle with
  | none => .error .nullHandle
  | some h =>
    match n.ports.get h with
    | none => .error .notMember
    | some port => .ok (h, port)

/-- `Tasks::StartUdpSend`. -/
def startUdpSend (handle : Option Nat) (ok : Bool) : Except Panic (Bool × NetworkLoop) := do
  let (h, port) ← n.find handle
  if ok then return (true, { n with ports := n.ports.insert h { port with sending := true } })
  else return (false, n)

/-- `Tasks::StartUdpRecv`. -/
def startUdpRecv (handle : Option Nat) (inbound : EndpointId) (ok : Bool) : Except Panic (Bool × NetworkLoop) := do
  let (h, port) ← n.find handle
  if ok then return (true, { n with ports := n.ports.insert h { port with inbound := some inbound } })
  else return (false, n)

/-- `Tasks::RemovePort`. -/
def removePort (handle : Option Nat) : Except Panic NetworkLoop := do
  let (h, _) ← n.find handle
  return { n with ports := n.ports.erase h }

end NetworkLoop

inductive Kind where
  | receiver | sender
deriving DecidableEq, Repr

/-- `ReceiverSlot` or `SenderSlot`: the interfaces that have an endpoint. -/
structure PipelineSlot where
  endpoints : List Interface := []
deriving DecidableEq, Repr

structure PipelineLoop where
  slots : Dict Nat PipelineSlot := ∅
  nextSlot : Nat := 0
  -- tasks scheduled so far
  tasks : Nat := 0

namespace PipelineLoop

variable (p : PipelineLoop)

/-- `Tasks::CreateSlot`. -/
def createSlot (ok : Bool) : Option Nat × PipelineLoop :=
  let p := { p with tasks := p.tasks + 1 }
  if ok then (some p.nextSlot, { p with slots := p.slots.insert p.nextSlot {}, nextSlot := p.nextSlot + 1 })
  else (none, p)

def find (handle : Option Nat) : Except Panic (Nat × PipelineSlot) :=
  match handle with
  | none => .error .nullHandle
  | some h =>
    match p.slots.get h with
    | none => .error .notMember
    | some slot => .ok (h, slot)

/-- `Tasks::DeleteSlot`. -/
def deleteSlot (handle : Option Nat) : Except Panic PipelineLoop := do
  let (h, _) ← p.find handle
  return { p with slots := p.slots.erase h, tasks := p.tasks + 1 }

/-- `Tasks::QuerySlot`. -/
def querySlot (handle : Option Nat) : Except Panic PipelineLoop := do
  let (_, _) ← p.find handle
  return { p with tasks := p.tasks + 1 }

/-- The interfaces for which `add_endpoint` knows what to do. -/
def supports : Interface → Bool
  | .audioSource | .audioRepair | .audioControl => true
  | .invalid | .consolidated => false

/-- `Tasks::AddEndpoint`: the endpoint is validated and created, then the pipeline is completed. If that
fails, a receiver slot drops the endpoint and a sender slot keeps it. -/
def addEndpoint (kind : Kind) (handle : Option Nat) (iface : Interface) (created completed : Bool) :
    Except Panic (Option EndpointId × PipelineLoop) := do
  let (h, slot) ← p.find handle
  let p := { p with tasks := p.tasks + 1 }
  if !supports iface || slot.endpoints.contains iface || !created then return (none, p)
  let added := { p with slots := p.slots.insert h { slot with endpoints := slot.endpoints ++ [iface] } }
  if completed then return (some ⟨h, iface⟩, added)
  match kind with
  | .receiver => return (none, p)
  | .sender => return (none, added)

end PipelineLoop

/-! ## Slots -/

/-- `Receiver::Port` and `Sender::Port`; only a sender has the last two fields. -/
structure Port where
  config : UdpConfig := {}
  handle : Option Nat := none
  origConfig : UdpConfig := {}
  outboundWriter : Bool := false
deriving DecidableEq, Repr

structure Slot where
  handle : Option Nat
  ports : Interface → Port := fun _ => {}
  broken : Bool := false

def Slot.setPort (slot : Slot) (iface : Interface) (port : Port) : Slot :=
  { slot with ports := Function.update slot.ports iface port }

structure Loops where
  net : NetworkLoop := {}
  pipeline : PipelineLoop := {}

structure State where
  slots : NodeMap Nat Slot := ∅
  -- `used_interfaces_` and `used_protocols_`
  used : Interface → Option Protocol := fun _ => none
  loops : Loops := {}

/-- The buckets of `slot_map_`, which has no embedded ones; a slot is hashed by its index. -/
def State.slotTable (node : State) : Except Fault (Hashmap Nat) :=
  node.slots.table (fun index => hashsumInt64 (.ofNat index)) 0

/-- What the environment chooses for `get_slot_`: the task, the memory for the slot, its insertion. -/
structure SlotLuck where
  created : Bool := true
  allocated : Bool := true
  inserted : Bool := true
deriving DecidableEq, Repr

/-- `get_slot_`. -/
def getSlot (node : State) (index : Nat) (autoCreate : Bool) (luck : SlotLuck) : Option Slot × State :=
  match node.slots.get index with
  | some slot => (some slot, node)
  | none =>
    if !autoCreate then (none, node)
    else
      match node.loops.pipeline.createSlot luck.created with
      | (none, pipeline) => (none, { node with loops := { node.loops with pipeline } })
      | (some h, pipeline) =>
        let node := { node with loops := { node.loops with pipeline } }
        if !luck.allocated then (none, node)
        else if !luck.inserted then (none, { node with slots := node.slots.refuse })
        else
          let slot : Slot := { handle := some h }
          (some slot, { node with slots := node.slots.insert index slot })

/-- The loop of `cleanup_slot_` over the ports. -/
def removePorts : List Interface → Slot → NetworkLoop → Except Panic (Slot × NetworkLoop)
  | [], slot, net => .ok (slot, net)
  | i :: is, slot, net =>
    if (slot.ports i).handle.isSome then do
      let net ← net.removePort (slot.ports i).handle
      removePorts is (slot.setPort i { slot.ports i with handle := none }) net
    else removePorts is slot net

/-- The part of `cleanup_slot_` about the pipeline slot. -/
def removeSlot (slot : Slot) (pipeline : PipelineLoop) : Except Panic (Slot × PipelineLoop) :=
  if slot.handle.isSome then do
    let pipeline ← pipeline.deleteSlot slot.handle
    return ({ slot with handle := none }, pipeline)
  else .ok (slot, pipeline)

/-- `cleanup_slot_`: a receiver removes the ports first, because they write to the pipeline slot; a sender
removes the pipeline slot first, because it writes to the ports. -/
def cleanupSlot (kind : Kind) (slot : Slot) (loops : Loops) : Except Panic (Slot × Loops) :=
  match kind with
  | .receiver => do
    let (slot, net) ← removePorts Interface.all slot loops.net
    let (slot, pipeline) ← removeSlot slot loops.pipeline
    return (slot, ⟨net, pipeline⟩)
  | .sender => do
    let (slot, pipeline) ← removeSlot slot loops.pipeline
    let (slot, net) ← removePorts Interface.all slot loops.net
    return (slot, ⟨net, pipeline⟩)

/-- `break_slot_`. -/
def breakSlot (kind : Kind) (slot : Slot) (loops : Loops) : Except Panic (Slot × Loops) :=
  cleanupSlot kind { slot with broken := true } loops

def State.putSlot (node : State) (index : Nat) (slot : Slot) (loops : Loops) : State :=
  { node with
    slots := node.slots.insert index slot
    loops }

/-- `configure`, with the slot found. -/
def configureSlot (kind : Kind) (slot : Slot) (iface : Interface) (config : UdpConfig) (loops : Loops) :
    Except Panic (Bool × Slot × Loops) :=
  if slot.broken then .ok (false, slot, loops)
  else if (slot.ports iface).handle.isSome then do
    let (slot, loops) ← breakSlot kind slot loops
    return (false, slot, loops)
  else .ok (true, slot.setPort iface { slot.ports iface with config }, loops)

/-- `configure`. -/
def configure (kind : Kind) (node : State) (index : Nat) (iface : Interface) (config : UdpConfig)
    (luck : SlotLuck) : Except Panic (Bool × State) :=
  match getSlot node index true luck with
  | (none, node) => .ok (false, node)
  | (some slot, node) => do
    let (ok, slot, loops) ← configureSlot kind slot iface config node.loops
    return (ok, node.putSlot index slot loops)

/-- `unlink`. -/
def unlink (kind : Kind) (node : State) (index : Nat) : Except Panic (Bool × State) :=
  match getSlot node index false {} with
  | (none, node) => .ok (false, node)
  | (some slot, node) => do
    let (_, loops) ← cleanupSlot kind slot node.loops
    return (true, { node with slots := node.slots.erase index, loops })

/-- `get_metrics`; `buffer` is whether the buffer for the participants, if one is asked for, could be
resized. The metrics themselves are left out. -/
def getMetrics (node : State) (index : Nat) (buffer : Option Bool) : Except Panic (Bool × State) :=
  match getSlot node index false {} with
  | (none, node) => .ok (false, node)
  | (some slot, node) =>
    if buffer = some false then .ok (false, node)
    else do
      let pipeline ← node.loops.pipeline.querySlot slot.handle
      return (true, { node with loops := { node.loops with pipeline } })

/-- `has_broken`. -/
def hasBroken (node : State) : Bool := node.slots.entries.entries.any fun e => e.2.broken

/-- `check_compatibility_`. -/
def compatible (used : Interface → Option Protocol) (iface : Interface) (uri : EndpointUri) : Bool :=
  match used iface with
  | none => true
  | some proto => proto == uri.proto

end Roc.Node
