import RocToolkit.Lib.Fair

/-!
# RocToolkit.Netio.TcpConnection

The state machine of `netio::TcpConnectionPort` (roc_netio/target_libuv/tcp_connection_port.cpp), one atomic
operation on `conn_state_` a step. The event loop thread runs one method or callback at a time (`loop` says
where it is); another thread calls `async_terminate` once (`term`); threads that do I/O can break an
established connection at any time.

What the socket operations and libuv return are choices of the environment. Calls that the source answers
with a panic because the user made them at the wrong time are not steps; `panicked` is set by the checks in
the callbacks and in `switch_and_report_state_`. Reports to the connection handler and I/O statistics are
left out.
-/

namespace Roc.Netio.TcpConnection

/-- `TcpConnectionPort::ConnectionState`. -/
inductive ConnectionState where
  | closed | opening | opened | connecting | refused | established | broken
  | terminating | terminated | closing
deriving DecidableEq, Repr

/-- `TcpConnectionType`. -/
inductive ConnectionType where
  | client | server
deriving DecidableEq, Repr

/-- `check_usable_`. -/
def ConnectionState.usable : ConnectionState → Bool
  | .connecting | .refused | .established | .broken | .terminating => true
  | _ => false

/-- Where a method goes on after `switch_and_report_state_`. -/
inductive Cont where
  | ret
  | openBody
  | acceptBody
  | connectBody
  | closeBody
deriving DecidableEq, Repr

inductive LoopPc where
  | idle
  -- in a method, after its last switch of the state
  | body (k : Cont)
  -- the loop of `switch_and_report_state_`
  | switchLoad (state : ConnectionState) (k : Cont)
  | switchCas (old state : ConnectionState) (k : Cont)
  -- `finish_terminate_cb_` called from `start_terminate_cb_`, and its switch to `State_Terminated`
  | finish
  | finishCas
deriving DecidableEq, Repr

/-- Where the thread is that calls `async_terminate`. -/
inductive TermPc where
  | ready
  | loaded (state : ConnectionState)
  | again
  | switched
  | sent
deriving DecidableEq, Repr

structure Conn where
  type : ConnectionType
  state : ConnectionState := .closed
  pollInitialized : Bool := false
  pollStarted : Bool := false
  pollClosing : Bool := false
  semInitialized : Bool := false
  semClosing : Bool := false
  wakeup : Bool := false
  socketValid : Bool := false
  wasEstablished : Bool := false
  wasFailed : Bool := false
  terminateHandler : Bool := false
  closeHandler : Bool := false
  loop : LoopPc := .idle
  term : TermPc := .ready
  panicked : Bool := false
  -- calls of the terminate handler
  handlerCalls : Nat := 0
deriving DecidableEq, Repr

namespace Conn

/-- The flags that `maybe_switch_state_` sets first. -/
def setFlags (c : Conn) (desired : ConnectionState) : Conn :=
  if desired = .established then { c with wasEstablished := true }
  else if desired = .refused ∨ desired = .broken then { c with wasFailed := true }
  else c

/-- The changes `maybe_switch_state_` passes over, by its condition as it stands. -/
def ignored (expected desired : ConnectionState) : Bool := (expected == .terminating || expected == .terminated) &&
    (expected != .terminating && desired != .terminated && desired != .closing)

/-- `maybe_switch_state_`. -/
def maybeSwitch (c : Conn) (expected desired : ConnectionState) : Bool × Conn :=
  let c := c.setFlags desired
  if ignored expected desired then (true, c)
  else if c.state = expected then (true, { c with state := desired })
  else (false, c)

def goOn (c : Conn) : Cont → Conn
  | .ret => { c with loop := .idle }
  | k => { c with loop := .body k }

/-- `start_polling_`: whether it initialized the handle, and whether it started it. -/
def startPolling (c : Conn) (initOk startOk : Bool) : Conn :=
  if initOk then { c with pollInitialized := true, pollStarted := startOk } else c

/-- `disconnect_socket_`, with what shutting down and closing the socket return. -/
def disconnectSocket (c : Conn) (shutdownOk closeOk : Bool) : Conn :=
  if c.socketValid then
    let graceful := c.wasEstablished && !c.wasFailed
    { c with socketValid := false, wasFailed := c.wasFailed || (graceful && !shutdownOk) || !closeOk }
  else c

end Conn

/-- What the environment chooses for one step of the event loop: the results of creating or accepting the
socket, of setting it up, of `uv_poll_init_socket` or `uv_async_init`, of `uv_poll_start`, whether the
connection was made at once, and the results of shutting down and closing the socket. -/
structure Choice where
  socketOk : Bool
  setupOk : Bool
  initOk : Bool
  startOk : Bool
  immediately : Bool
  shutdownOk : Bool
  closeOk : Bool
deriving DecidableEq, Repr

inductive Call where
  | open_
  | accept
  | connect
  /-- `poll_cb_`: a negative status, and whether the socket is writable with `socket_end_connect` succeeding -/
  | poll (failed writable connected : Bool)
  | attachTerminateHandler
  | startTerminate
  | finishTerminate (shutdownOk closeOk : Bool)
  | asyncClose
  /-- `close_cb_` -/
  | closed
deriving DecidableEq, Repr

def begin (c : Conn) : Call → Option Conn
  | .open_ =>
    if c.state = .closed && !c.closeHandler then some { c with loop := .switchLoad .opening .openBody } else none
  | .accept =>
    if c.type = .server && c.state = .opened then some { c with loop := .switchLoad .connecting .acceptBody }
    else none
  | .connect =>
    if c.type = .client && c.state = .opened then some { c with loop := .switchLoad .connecting .connectBody }
    else none
  | .poll failed writable connected =>
    if c.pollStarted then
      if c.state = .connecting && failed then some { c with loop := .switchLoad .refused .ret }
      else if c.state = .connecting && writable then
        some { c with loop := .switchLoad (if connected then .established else .refused) .ret }
      else if c.state = .established && failed then some { c with loop := .switchLoad .broken .ret }
      else some c
    else none
  | .attachTerminateHandler =>
    if c.state.usable && !c.terminateHandler then some { c with terminateHandler := true } else none
  | .startTerminate =>
    if c.wakeup && c.semInitialized && !c.semClosing then
      let c := { c with wakeup := false }
      if c.state ≠ .terminating then some { c with panicked := true }
      else if c.pollInitialized then some { c with pollStarted := false, pollClosing := true }
      else some { c with loop := .finish }
    else none
  | .finishTerminate shutdownOk closeOk =>
    if c.pollInitialized && c.pollClosing then
      if c.state ≠ .terminating then some { c with panicked := true }
      else some ({ c with pollInitialized := false, loop := .finishCas }.disconnectSocket shutdownOk closeOk)
    else none
  | .asyncClose =>
    if (c.state = .opening || c.state = .opened || c.state = .terminated) && !c.closeHandler then
      some { c with closeHandler := true, loop := .switchLoad .closing .closeBody }
    else none
  | .closed =>
    if c.semInitialized && c.semClosing then
      if c.state ≠ .closing then some { c with panicked := true }
      else some { c with semInitialized := false, loop := .switchLoad .closed .ret }
    else none

def advance (c : Conn) (e : Choice) : Option Conn :=
  match c.loop with
  | .idle => none
  | .switchLoad new k =>
    some (if c.state = new then c.goOn k else { c with loop := .switchCas c.state new k })
  | .switchCas old new k =>
    match c.maybeSwitch old new with
    | (true, c) => some (c.goOn k)
    | (false, c) => some { c with loop := .switchLoad new k }
  | .body .openBody =>
    if e.initOk then some { c with semInitialized := true, loop := .switchLoad .opened .ret }
    else some { c with loop := .idle }
  | .body .acceptBody =>
    let c := { c with socketValid := e.socketOk }
    if e.socketOk && e.setupOk then
      let c := c.startPolling e.initOk e.startOk
      if e.initOk && e.startOk then some { c with loop := .switchLoad .established .ret }
      else some { c with loop := .idle }
    else some { c with loop := .idle }
  | .body .connectBody =>
    let c := { c with socketValid := e.socketOk }
    if e.socketOk && e.setupOk then
      let c := c.startPolling e.initOk e.startOk
      if e.initOk && e.startOk && e.immediately then some { c with loop := .switchLoad .established .ret }
      else some { c with loop := .idle }
    else some { c with loop := .idle }
  | .body .closeBody =>
    if c.semInitialized then some { c with semClosing := true, loop := .idle }
    else some { c with loop := .switchLoad .closed .ret }
  | .body .ret => none
  | .finish =>
    if c.state ≠ .terminating then some { c with panicked := true }
    else some ({ c with pollInitialized := false, loop := .finishCas }.disconnectSocket e.shutdownOk e.closeOk)
  | .finishCas =>
    match c.maybeSwitch .terminating .terminated with
    | (true, c) =>
      some { c with loop := .idle, handlerCalls := c.handlerCalls + c.terminateHandler.toNat }
    | (false, c) => some { c with panicked := true }

/-- The next step of `async_terminate`; `failure` is its mode. -/
def terminate (c : Conn) (failure : Bool) : Option Conn :=
  match c.term with
  | .ready => if c.state.usable && c.state ≠ .terminating then some { c with term := .loaded c.state } else none
  | .again =>
    if c.state.usable && c.state ≠ .terminating then some { c with term := .loaded c.state }
    else some { c with panicked := true }
  | .loaded old =>
    match c.maybeSwitch old .terminating with
    | (true, c) => some { c with term := .switched }
    | (false, c) => some { c with term := .again }
  | .switched => some { c with wasFailed := c.wasFailed || failure, wakeup := true, term := .sent }
  | .sent => none

inductive Label where
  | begin (call : Call)
  | advance (e : Choice)
  | terminate (failure : Bool)
  /-- a read or write fails: `maybe_switch_state_(State_Established, State_Broken)` -/
  | ioFailed
deriving DecidableEq, Repr

/-- What the label does, `none` if it cannot happen. -/
def next (c : Conn) : Label → Option Conn
  | .begin call => if c.loop = .idle then begin c call else none
  | .advance e => advance c e
  | .terminate failure => terminate c failure
  | .ioFailed => some (c.maybeSwitch .established .broken).2

def Step (c : Conn) (l : Label) (c' : Conn) : Prop := c.panicked = false ∧ next c l = some c'

def Initial (c : Conn) : Prop := ∃ type, c = { type }

end Roc.Netio.TcpConnection
