import RocToolkit.Lib.Fair
import RocToolkit.Lib.Pool

/-!
# RocToolkit.Netio.UdpPort

The sending side of `netio::UdpPort` and its way to being closed (roc_netio/target_libuv/udp_port.cpp), one
atomic operation a step. Any number of threads are in `write`. The event loop runs one callback at a time:
`write_sem_cb_` pops packet after packet while others push (`looping`), the other callbacks and `async_close`
touch what is shared with the writers once only and are one step (`Event`). A `Pc` says what a call has to do
next.

`outbound_queue_` is an `MpscQueue`: `push_back` first takes the place behind the last packet and then links
it to the one before, and a packet is popped only if it is linked and the one behind it, if any, is linked
too. libuv's part: `uv_async_send` asks for one more call of `write_sem_cb_`; every `uv_udp_send` that
returned 0 (a choice of the environment, `luck`) is answered by one `send_cb_`; every `uv_close` by one
`close_cb_`. The packets are numbered in the order of the `write` calls. Counters that are only logged are
left out.
-/

namespace Roc.Netio.UdpPort

/-- `AsyncOperationStatus`. -/
inductive AsyncOp where
  | completed | started
deriving DecidableEq, Repr

structure Port where
  enableNonBlocking : Bool := false
  handleInitialized : Bool := true
  writeSemInitialized : Bool := true
  multicastGroupJoined : Bool := false
  recvStarted : Bool := false
  wantClose : Bool := false
  closed : Bool := false
  -- `close_handler_` is set
  closeHandler : Bool := false
  pendingPackets : Int := 0
  -- the packets, and whether each is linked
  outboundQueue : List (Nat × Bool) := []
  -- libuv: `uv_close` was called for the handle, for the semaphore
  handleClosing : Bool := false
  writeSemClosing : Bool := false
  wakeup : Bool := false
  inFlight : List Nat := []
  looping : Bool := false
  -- what happened so far: packets given to `write`, sends that failed, calls of the close handler,
  -- and what `async_close` returned
  numPackets : Nat := 0
  failedSends : Nat := 0
  closeCompleted : Nat := 0
  closeStatus : Option AsyncOp := none
deriving DecidableEq, Repr

namespace Port

/-- `fully_closed_`. -/
def fullyClosed (s : Port) : Bool := (!s.handleInitialized && !s.writeSemInitialized) || s.closed

/-- `start_closing_`. -/
def startClosing (s : Port) : Port :=
  if s.fullyClosed then s
  else { s with
    recvStarted := false
    multicastGroupJoined := false
    handleClosing := s.handleClosing || s.handleInitialized
    writeSemClosing := s.writeSemClosing || s.writeSemInitialized }

end Port

/-- `MpscQueue::try_pop_front_exclusive`. -/
def tryPop : List (Nat × Bool) → Option (Nat × List (Nat × Bool))
  | [] => none
  | (p, linked) :: rest =>
    match rest with
    | [] => if linked then some (p, []) else none
    | (_, linked') :: _ => if linked && linked' then some (p, rest) else none

/-- The second half of `MpscQueue::push_back`. -/
def link (p : Nat) (queue : List (Nat × Bool)) : List (Nat × Bool) := queue.map fun (q, linked) => (q, linked || q == p)

inductive Pc where
  -- `write_` and `try_nonblocking_write_`
  | writeInc (packet : Nat)
  | writeTry (packet : Nat)
  | writeDec
  | writePush (packet : Nat)
  | writeLink (packet : Nat)
  | writeWake
  -- the loop of `write_sem_cb_`
  | drain
deriving DecidableEq, Repr

open Pc

inductive Entry where
  | write
  /-- libuv runs `write_sem_cb_` -/
  | wake
deriving DecidableEq, Repr

def enter : Entry → Port → Option (Port × Pc)
  -- a writer exists after `start_send`; writing to a port that is to be closed is a panic
  | .write, s =>
    if s.writeSemInitialized && !s.wantClose then
      some ({ s with numPackets := s.numPackets + 1 }, writeInc s.numPackets)
    else none
  | .wake, s =>
    if s.wakeup && s.writeSemInitialized && !s.writeSemClosing && !s.looping then
      some ({ s with wakeup := false, looping := true }, drain)
    else none

def advance (luck : Bool) (s : Port) : Pc → Option (Port × Option Pc)
  | writeInc packet =>
    some ({ s with pendingPackets := s.pendingPackets + 1 },
      some (if s.pendingPackets + 1 > 1 then writePush packet else writeTry packet))
  | writeTry packet =>
    some (s, some (if s.enableNonBlocking && luck then writeDec else writePush packet))
  | writeDec => some ({ s with pendingPackets := s.pendingPackets - 1 }, none)
  | writePush packet =>
    some ({ s with outboundQueue := s.outboundQueue ++ [(packet, false)] }, some (writeLink packet))
  | writeLink packet =>
    some ({ s with outboundQueue := link packet s.outboundQueue }, some writeWake)
  | writeWake => some ({ s with wakeup := true }, none)
  | drain =>
    match tryPop s.outboundQueue with
    | none => some ({ s with looping := false }, none)
    | some (packet, queue) =>
      if luck then
        some ({ s with outboundQueue := queue, inFlight := packet :: s.inFlight }, some drain)
      else
        -- `uv_udp_send` failed: the packet is dropped
        some ({ s with outboundQueue := queue, failedSends := s.failedSends + 1 }, some drain)

inductive Event where
  | asyncClose
  /-- libuv is done with a send -/
  | sent (packet : Nat)
  /-- libuv has closed the handle, or the semaphore -/
  | handleClosed
  | writeSemClosed
deriving DecidableEq, Repr

namespace Port

/-- `async_close`; calling it twice is a panic. -/
def asyncClose (s : Port) : Option Port :=
  if s.closeHandler then none
  else
    let s := { s with closeHandler := true, wantClose := true }
    if s.fullyClosed then some { s with closeStatus := some .completed }
    else
      let s := { s with closeStatus := some .started }
      some (if s.pendingPackets = 0 then s.startClosing else s)

/-- `send_cb_`. -/
def sendCb (s : Port) (packet : Nat) : Port :=
  let s := { s with pendingPackets := s.pendingPackets - 1, inFlight := s.inFlight.erase packet }
  if s.pendingPackets = 0 && s.wantClose then s.startClosing else s

/-- The end of `close_cb_`. -/
def finishClose (s : Port) : Port :=
  if s.handleInitialized || s.writeSemInitialized then s
  else { s with closed := true, closeCompleted := s.closeCompleted + 1 }

end Port

def handle (s : Port) : Event → Option Port
  | .asyncClose => if s.looping then none else s.asyncClose
  | .sent packet => if !s.looping && packet ∈ s.inFlight then some (s.sendCb packet) else none
  | .handleClosed =>
    if !s.looping && s.handleInitialized && s.handleClosing then
      some { s with handleInitialized := false }.finishClose
    else none
  | .writeSemClosed =>
    if !s.looping && s.writeSemInitialized && s.writeSemClosing then
      some { s with writeSemInitialized := false }.finishClose
    else none

abbrev Calls := Pool Port Pc

inductive Label where
  | call (l : Pool.Label Entry Bool Pc)
  | event (e : Event)

inductive Step : Calls → Label → Calls → Prop where
  | call {c c' : Calls} {l : Pool.Label Entry Bool Pc} (h : Pool.Step enter advance c l c') : Step c (.call l) c'
  | event {s s' : Port} {calls : Multiset Pc} {e : Event} (h : handle s e = some s') :
      Step ⟨s, calls⟩ (.event e) ⟨s', calls⟩

/-- A port that was opened (or whose opening failed half way), with or without `start_send`. -/
def Initial (c : Calls) : Prop := c.calls = 0 ∧ ∃ nonBlocking handle sem multicast recv, c.shared =
    { enableNonBlocking := nonBlocking
      handleInitialized := handle
      writeSemInitialized := sem
      multicastGroupJoined := multicast
      recvStarted := recv }

end Roc.Netio.UdpPort
