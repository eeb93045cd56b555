import RocToolkit.Core.Slice
import RocToolkit.Lib.LinkedQueue

/-!
# RocToolkit.Core.MpscQueue

`core::MpscQueue`: any number of threads in `push_back` and one in `pop_front_exclusive` or
`try_pop_front_exclusive`. Every atomic operation is one step; between two of them any other thread may run.
-/

namespace Roc.Core.MpscQueue

open LinkedQueue (PushPc)

/-- `MpscQueueData*`: the stub of the queue, or the node of an element. -/
inductive Ptr (ν : Type) where
  | stub
  | node (n : ν)
deriving DecidableEq, Repr

/-- A thread that calls `push_back`; the owner of the node is already changed. -/
inductive Producer (ν : Type) where
  | idle
  | pushNode (node : ν) (pc : PushPc (Ptr ν))
deriving DecidableEq, Repr

/-- The places of `pop_front`. -/
inductive PopPc (ν : Type) where
  | loadHead
  | loadNext (head : Ptr ν)
  | checkTail (head : Ptr ν)
  | waitStub (head : Ptr ν) (tries : Nat)
  | dropStub (next : Ptr ν)
  | reloadNext (head : Ptr ν)
  | checkLast (head : Ptr ν)
  | pushStub (head : Ptr ν) (pc : PushPc (Ptr ν))
  | waitNext (head : Ptr ν) (tries : Nat)
  | moveHead (head next : Ptr ν)
  | changeOwner (node : Ptr ν)
deriving DecidableEq, Repr

inductive Consumer (ν : Type) where
  | idle
  | popFront (canSpin : Bool) (pc : PopPc ν)
deriving DecidableEq, Repr

/-- What is seen of a run. -/
inductive Event (ν π : Type) where
  /-- `push_back` is called -/
  | called (p : π) (n : ν)
  /-- the tail is exchanged for a node -/
  | exchanged (p : π) (n : ν)
  /-- an element is returned -/
  | popped (n : ν)
  /-- `NULL` is returned -/
  | null (canSpin : Bool)
deriving DecidableEq, Repr

inductive Action (ν π : Type) where
  | push (p : π) (n : ν)
  | produce (p : π)
  | pop (canSpin : Bool)
  | consume

/-- The queue, with the data of all nodes; `queue` is true for those that belong to it. -/
structure State (ν π : Type) where
  next : Ptr ν → Option (Ptr ν) := fun _ => none
  queue : Ptr ν → Bool := fun _ => false
  tail : Ptr ν := .stub
  head : Ptr ν := .stub
  producers : π → Producer ν := fun _ => .idle
  consumer : Consumer ν := .idle

/-- What an operation of `push_node_` leaves, with the place of the next one. -/
structure Pushed (ν : Type) where
  next : Ptr ν → Option (Ptr ν)
  tail : Ptr ν
  pc : Option (PushPc (Ptr ν))

variable {ν π : Type}

section
variable [DecidableEq ν] [DecidableEq π]

namespace State

def changeOwner (s : State ν π) (node : Ptr ν) (src dst : Bool) : Except Fault (State ν π) :=
  if s.queue node = src then .ok { s with queue := Function.update s.queue node dst }
  else .error (.panic "mpsc queue: unexpected node owner")

/-- One operation of `push_node_`. -/
def pushNode (s : State ν π) (node : Ptr ν) : PushPc (Ptr ν) → Pushed ν
  | .clear => { next := Function.update s.next node none, tail := s.tail, pc := some .exchange }
  | .exchange => { next := s.next, tail := node, pc := some (.link s.tail) }
  | .link prev => { next := Function.update s.next prev (some node), tail := s.tail, pc := none }

def goTo (s : State ν π) (canSpin : Bool) (pc : PopPc ν) : Except Fault (State ν π × List (Event ν π)) :=
  .ok ({ s with consumer := .popFront canSpin pc }, [])

def returnNull (s : State ν π) (canSpin : Bool) : Except Fault (State ν π × List (Event ν π)) :=
  .ok ({ s with consumer := .idle }, [.null canSpin])

/-- One load of `wait_next_` or `try_wait_next_`: the latter gives up at the third one. -/
def wait (s : State ν π) (canSpin : Bool) (node : Ptr ν) (tries : Nat) (found : Ptr ν → PopPc ν)
    (again : Nat → PopPc ν) : Except Fault (State ν π × List (Event ν π)) :=
  match s.next node with
  | some next => s.goTo canSpin (found next)
  | none => if !canSpin && tries ≥ 2 then s.returnNull canSpin else s.goTo canSpin (again (tries + 1))

/-- One operation of `pop_front`. -/
def popFront (s : State ν π) (canSpin : Bool) : PopPc ν → Except Fault (State ν π × List (Event ν π))
  | .loadHead => s.goTo canSpin (.loadNext s.head)
  | .loadNext head =>
    match s.next head with
    | none => s.goTo canSpin (if head = .stub then .checkTail head else .checkLast head)
    | some next => s.goTo canSpin (if head = .stub then .dropStub next else .moveHead head next)
  | .checkTail head => if s.tail = head then s.returnNull canSpin else s.goTo canSpin (.waitStub head 0)
  | .waitStub head tries => s.wait canSpin head tries .dropStub (.waitStub head)
  | .dropStub next => { s with head := next }.goTo canSpin (.reloadNext next)
  | .reloadNext head =>
    match s.next head with
    | none => s.goTo canSpin (.checkLast head)
    | some next => s.goTo canSpin (.moveHead head next)
  | .checkLast head => s.goTo canSpin (if s.tail = head then .pushStub head .clear else .waitNext head 0)
  | .pushStub head pc =>
    let r := s.pushNode .stub pc
    { s with next := r.next, tail := r.tail }.goTo canSpin (match r.pc with
      | some pc => .pushStub head pc
      | none => .waitNext head 0)
  | .waitNext head tries => s.wait canSpin head tries (.moveHead head) (.waitNext head)
  | .moveHead head next => { s with head := next }.goTo canSpin (.changeOwner head)
  | .changeOwner node => do
    let s ← s.changeOwner node true false
    .ok ({ s with consumer := .idle }, match node with
      | .stub => []
      | .node n => [.popped n])

/-- One operation of a thread that is in `push_back`. -/
def pushBack (s : State ν π) (p : π) (n : ν) (pc : PushPc (Ptr ν)) : State ν π × List (Event ν π) :=
  let r := s.pushNode (.node n) pc
  ({ s with
      next := r.next
      tail := r.tail
      producers := Function.update s.producers p (match r.pc with
        | some pc => .pushNode n pc
        | none => .idle) },
    match pc with
    | .exchange => [.exchanged p n]
    | _ => [])

def step (s : State ν π) : Action ν π → Except Fault (State ν π × List (Event ν π))
  | .push p n =>
    match s.producers p with
    | .idle => do
      let s ← s.changeOwner (.node n) false true
      .ok ({ s with producers := Function.update s.producers p (.pushNode n .clear) }, [.called p n])
    | .pushNode _ _ => .ok (s, [])
  | .produce p =>
    match s.producers p with
    | .idle => .ok (s, [])
    | .pushNode n pc => .ok (s.pushBack p n pc)
  | .pop canSpin =>
    match s.consumer with
    | .idle => s.goTo canSpin .loadHead
    | .popFront _ _ => .ok (s, [])
  | .consume =>
    match s.consumer with
    | .idle => .ok (s, [])
    | .popFront canSpin pc => s.popFront canSpin pc

end State

/-- A run from the empty queue with all that was seen. -/
inductive Run : State ν π → List (Event ν π) → Prop where
  | start : Run {} []
  | step {s s' : State ν π} {evs new : List (Event ν π)} (a : Action ν π) (h : Run s evs)
      (hs : s.step a = .ok (s', new)) : Run s' (evs ++ new)

end

/-! What the events tell. -/

def Event.call? : Event ν π → Option (π × ν)
  | .called p n => some (p, n)
  | _ => none

def Event.exchange? : Event ν π → Option (π × ν)
  | .exchanged p n => some (p, n)
  | _ => none

def Event.popped? : Event ν π → Option ν
  | .popped n => some n
  | _ => none

/-- The elements in the order of the calls of `push_back`. -/
def calls (evs : List (Event ν π)) : List (π × ν) := evs.filterMap Event.call?

def exchanges (evs : List (Event ν π)) : List (π × ν) := evs.filterMap Event.exchange?

def pops (evs : List (Event ν π)) : List ν := evs.filterMap Event.popped?

/-- The element was given to `push_back` and not returned since. -/
def handed [DecidableEq ν] (evs : List (Event ν π)) (n : ν) : Bool := evs.foldl (fun b ev =>
    match ev with
    | .called _ m => b || n = m
    | .popped m => b && n ≠ m
    | _ => b) false

theorem exchanges_concat (evs : List (Event ν π)) (ev : Event ν π) :
    exchanges (evs ++ [ev]) = exchanges evs ++ ev.exchange?.toList := by
  rw [exchanges, List.filterMap_append]
  cases ev <;> rfl

theorem pops_concat (evs : List (Event ν π)) (ev : Event ν π) : pops (evs ++ [ev]) = pops evs ++ ev.popped?.toList := by
  rw [pops, List.filterMap_append]
  cases ev <;> rfl

variable [DecidableEq ν]

section
variable (evs : List (Event ν π))
include evs

theorem handed_called (p : π) (m n : ν) : handed (evs ++ [.called p m]) n = (handed evs n || n = m) := by
  rw [handed, List.foldl_concat]
  rfl

theorem handed_popped (m n : ν) : handed (evs ++ [.popped m]) n = (handed evs n && n ≠ m) := by
  rw [handed, List.foldl_concat]
  rfl

theorem handed_exchanged (p : π) (m n : ν) : handed (evs ++ [.exchanged p m]) n = handed evs n := by
  rw [handed, List.foldl_concat]
  rfl

theorem handed_null (canSpin : Bool) (n : ν) : handed (evs ++ [.null canSpin]) n = handed evs n := by
  rw [handed, List.foldl_concat]
  rfl

end
end Roc.Core.MpscQueue
