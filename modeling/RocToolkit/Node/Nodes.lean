import RocToolkit.Node.Slots

/-!
# RocToolkit.Node.Nodes

`node::Receiver` and `node::Sender`: `bind` and `connect`, which open a port, create an endpoint of the
pipeline and connect the two, with an exit after every task that fails; and the calls of a user.
-/

namespace Roc.Node

/-! ## Calls -/

/-- The calls of a user, with the choices of the environment; `attach` is `bind` or `connect`. -/
inductive Call (β : Type) where
  | configure (index : Nat) (iface : Interface) (config : UdpConfig) (luck : SlotLuck)
  | attach (index : Nat) (iface : Interface) (uri : EndpointUri) (luck : β)
  | unlink (index : Nat)
  | getMetrics (index : Nat) (buffer : Option Bool)
  | hasBroken

def callWith {β : Type} (kind : Kind)
    (attach : State → Nat → Interface → EndpointUri → β → Except Panic (Bool × State)) (node : State) :
    Call β → Except Panic (Bool × State)
  | .configure index iface config luck => configure kind node index iface config luck
  | .attach index iface uri luck => attach node index iface uri luck
  | .unlink index => unlink kind node index
  | .getMetrics index buffer => getMetrics node index buffer
  | .hasBroken => .ok (hasBroken node, node)

/-! ## Receiver -/

/-- What the environment chooses for `bind`: the resolved address, the address of the socket if it is
opened, and the results of the tasks that follow. -/
structure BindLuck where
  slot : SlotLuck := {}
  resolved : Option SocketAddr := none
  bound : Option SocketAddr := none
  sendStarted : Bool := true
  endpointCreated : Bool := true
  endpointCompleted : Bool := true
  recvStarted : Bool := true
deriving DecidableEq, Repr

/-- An exit of `bind` or `connect`. -/
def failSlot (kind : Kind) (slot : Slot) (loops : Loops) : Except Panic (Bool × Slot × Loops) := do
  let (slot, loops) ← breakSlot kind slot loops
  return (false, slot, loops)

namespace Receiver

/-- The end of `bind`: the endpoint, and receiving on the port. -/
def bindEndpoint (slot : Slot) (iface : Interface) (luck : BindLuck) (loops : Loops) :
    Except Panic (Bool × Slot × Loops) := do
  let (endpoint, pipeline) ←
    loops.pipeline.addEndpoint .receiver slot.handle iface luck.endpointCreated luck.endpointCompleted
  let loops := { loops with pipeline }
  match endpoint with
  | none => failSlot .receiver slot loops
  | some inbound => do
    let (ok, net) ← loops.net.startUdpRecv (slot.ports iface).handle inbound luck.recvStarted
    let loops := { loops with net }
    if ok then return (true, slot, loops) else failSlot .receiver slot loops

/-- The middle of `bind`: sending on the port of a control interface. -/
def bindPort (slot : Slot) (iface : Interface) (luck : BindLuck) (loops : Loops) : Except Panic (Bool × Slot × Loops) :=
  if iface = .audioControl then do
    let (ok, net) ← loops.net.startUdpSend (slot.ports iface).handle luck.sendStarted
    let loops := { loops with net }
    if ok then bindEndpoint slot iface luck loops else failSlot .receiver slot loops
  else bindEndpoint slot iface luck loops

/-- `bind`, with the slot found. -/
def bindSlot (used : Interface → Option Protocol) (slot : Slot) (iface : Interface) (uri : EndpointUri)
    (luck : BindLuck) (loops : Loops) : Except Panic (Bool × Slot × Loops) :=
  if slot.broken then .ok (false, slot, loops)
  else if !uri.verified then failSlot .receiver slot loops
  else if !compatible used iface uri then failSlot .receiver slot loops
  else
    match luck.resolved with
    | none => failSlot .receiver slot loops
    | some address =>
      let port := slot.ports iface
      let slot := slot.setPort iface { port with config := { port.config with bindAddress := some address } }
      match loops.net.addUdpPort luck.bound with
      | (none, _) => failSlot .receiver slot loops
      | (some (h, bound), net) =>
        let config := { port.config with bindAddress := some bound }
        -- the handle is overwritten, whatever it was
        let slot := slot.setPort iface { port with config, handle := some h }
        bindPort slot iface luck { loops with net }

/-- The port number that `bind` reports back. -/
def reportPort (slot : Slot) (iface : Interface) (uri : EndpointUri) : Except Panic EndpointUri :=
  if uri.port = 0 then
    let port : Int := match (slot.ports iface).config.bindAddress with
      | none => -1
      | some address => address.port.toNat
    match uri.setPort port with
    | none => .error .setPort
    | some uri => .ok uri
  else .ok uri

/-- `Receiver::bind`. -/
def bind (node : State) (index : Nat) (iface : Interface) (uri : EndpointUri) (luck : BindLuck) :
    Except Panic (Bool × EndpointUri × State) :=
  match getSlot node index true luck.slot with
  | (none, node) => .ok (false, uri, node)
  | (some slot, node) => do
    let (ok, slot, loops) ← bindSlot node.used slot iface uri luck node.loops
    let node := node.putSlot index slot loops
    if ok then do
      let uri ← reportPort slot iface uri
      return (true, uri, { node with used := Function.update node.used iface (some uri.proto) })
    else return (false, uri, node)

def call (node : State) (c : Call BindLuck) : Except Panic (Bool × State) :=
  callWith .receiver (fun node index iface uri luck => do
    let (ok, _, node) ← bind node index iface uri luck
    return (ok, node)) node c

end Receiver

/-! ## Sender -/

/-- What the environment chooses for `connect`. -/
structure ConnectLuck where
  slot : SlotLuck := {}
  resolved : Option SocketAddr := none
  bound : Option SocketAddr := none
  sendStarted : Bool := true
  endpointCreated : Bool := true
  endpointCompleted : Bool := true
  -- the endpoint has a writer for inbound packets
  hasInbound : Bool := true
  recvStarted : Bool := true
deriving DecidableEq, Repr

namespace Sender

/-- `select_outgoing_port_`: the interface whose port is used. -/
def selectOutgoingPort (slot : Slot) (iface : Interface) (family : AddrFamily) : Interface :=
  let shares := iface = .audioSource || iface = .audioRepair || iface = .audioControl
  if shares && (slot.ports iface).handle.isNone then
    let other := Interface.all.find? fun i =>
      i ≠ iface && (slot.ports i).handle.isSome && (slot.ports i).origConfig == (slot.ports iface).config &&
        (slot.ports i).config.bindAddress.map SocketAddr.family == some family
    other.getD iface
  else iface

/-- `setup_outgoing_port_`; the addresses that it sets are good ones. -/
def setupOutgoingPort (port : Port) (family : AddrFamily) : Option Port :=
  match port.config.bindAddress with
  | some address =>
    if address.family ≠ family then none
    else if port.handle.isNone then some { port with origConfig := port.config }
    else some port
  | none =>
    if port.handle.isNone then
      some { port with
        origConfig := port.config
        config := { port.config with bindAddress := some ⟨family, 0, 0⟩ } }
    else some port

/-- The end of `connect`: the endpoint, and receiving on the port of a control interface. -/
def connectEndpoint (slot : Slot) (iface selected : Interface) (luck : ConnectLuck) (loops : Loops) :
    Except Panic (Bool × Slot × Loops) := do
  let (endpoint, pipeline) ←
    loops.pipeline.addEndpoint .sender slot.handle iface luck.endpointCreated luck.endpointCompleted
  let loops := { loops with pipeline }
  match endpoint with
  | none => failSlot .sender slot loops
  | some inbound =>
    if iface = .audioControl && luck.hasInbound then do
      let (ok, net) ← loops.net.startUdpRecv (slot.ports selected).handle inbound luck.recvStarted
      let loops := { loops with net }
      if ok then return (true, slot, loops) else failSlot .sender slot loops
    else return (true, slot, loops)

/-- The middle of `connect`: sending on the port, if it has not been started. -/
def connectPort (slot : Slot) (iface selected : Interface) (luck : ConnectLuck) (loops : Loops) :
    Except Panic (Bool × Slot × Loops) :=
  let port := slot.ports selected
  if port.outboundWriter then connectEndpoint slot iface selected luck loops
  else do
    let (ok, net) ← loops.net.startUdpSend port.handle luck.sendStarted
    let loops := { loops with net }
    if ok then
      connectEndpoint (slot.setPort selected { port with outboundWriter := true }) iface selected luck loops
    else failSlot .sender slot loops

/-- `connect`, with the slot found. -/
def connectSlot (used : Interface → Option Protocol) (slot : Slot) (iface : Interface) (uri : EndpointUri)
    (luck : ConnectLuck) (loops : Loops) : Except Panic (Bool × Slot × Loops) :=
  if slot.broken then .ok (false, slot, loops)
  else if !uri.verified then failSlot .sender slot loops
  else if !compatible used iface uri then failSlot .sender slot loops
  else
    match luck.resolved with
    | none => failSlot .sender slot loops
    | some address =>
      let selected := selectOutgoingPort slot iface address.family
      match setupOutgoingPort (slot.ports selected) address.family with
      | none => failSlot .sender slot loops
      | some port =>
        if port.handle.isSome then connectPort (slot.setPort selected port) iface selected luck loops
        else
          match loops.net.addUdpPort luck.bound with
          | (none, _) => failSlot .sender (slot.setPort selected port) loops
          | (some (h, bound), net) =>
            let config := { port.config with bindAddress := some bound }
            let slot := slot.setPort selected { port with config, handle := some h }
            connectPort slot iface selected luck { loops with net }

/-- `Sender::connect`. -/
def connect (node : State) (index : Nat) (iface : Interface) (uri : EndpointUri) (luck : ConnectLuck) :
    Except Panic (Bool × State) :=
  match getSlot node index true luck.slot with
  | (none, node) => .ok (false, node)
  | (some slot, node) => do
    let (ok, slot, loops) ← connectSlot node.used slot iface uri luck node.loops
    let node := node.putSlot index slot loops
    if ok then return (true, { node with used := Function.update node.used iface (some uri.proto) })
    else return (false, node)

def call (node : State) (c : Call ConnectLuck) : Except Panic (Bool × State) := callWith .sender connect node c

end Sender

end Roc.Node
