import RocToolkit.Lib.Loop
import RocToolkit.Lib.Pool

/-!
# RocToolkit.Pipeline.Loop

`pipeline::PipelineLoop`, one atomic operation or mutex operation a step. A `Pc` says what a call has to do
next; its name tells the method and the operation. `schedule_async_task_processing_` and
`cancel_async_task_processing_` end the method that calls them, except that a frame goes on after it has
cancelled. A thread that waits in `schedule_and_wait` for its task does nothing to the loop, so that call
is over once the task is queued.

The clock, the frames and the races inside the seqlock and the queue are choices of the environment
(`luck`). `request` says whether `schedule_task_processing` was called and neither answered nor cancelled.
-/

namespace Roc.Pipeline.Loop

inductive ProcState where
  | notScheduled | scheduled | running
deriving DecidableEq, Repr

structure Shared where
  pendingTasks : Int := 0
  pendingFrames : Int := 0
  procState : ProcState := .notScheduled
  pipelineLocked : Bool := false
  schedulerLocked : Bool := false
  -- `next_frame_deadline_` is being stored
  storing : Bool := false
  taskQueue : List Nat := []
  request : Bool := false
  -- the tasks given to `schedule`, and those processed, with their completers called
  known : List Nat := []
  finished : List Nat := []
deriving DecidableEq, Repr

inductive Pc where
  -- `schedule_and_maybe_process_task_`
  | taskInc (task : Nat)
  | taskPush (task : Nat)
  | taskLoad (task : Nat)
  | taskAllow (task : Nat)
  | taskPushLate (task : Nat)
  | taskFrames
  | taskLock (task : Nat)
  | taskRun (task : Nat)
  | taskDec
  | taskPreempt
  | taskUnlock (preempted : Bool)
  | taskPending (preempted : Bool)
  -- `process_tasks` and `maybe_process_tasks_`
  | procLoad
  | procLock
  | procRunning
  | procAllow
  | procFrames
  | procPop
  | procRun (task : Nat)
  | procDec
  | procUnlock (preempted : Bool)
  | procPending (preempted : Bool)
  | procReset (needReschedule : Bool)
  -- `process_subframes_and_tasks`
  | frameInc
  | frameLock
  | frameSub (first : Bool)
  | frameStore
  | frameStored
  | frameCheck
  | framePop
  | frameRun (task : Nat)
  | frameTaskDec
  | frameMore
  | frameNext
  | frameStats
  | frameStatsUnlock
  | frameUnlock
  | frameDec
  | framePending
  -- `schedule_async_task_processing_`
  | asyncLoad
  | asyncLock
  | asyncState
  | asyncCall
  | asyncStore
  | asyncUnlock
  | asyncFrames
  -- `cancel_async_task_processing_`, called for a frame or not
  | cancelLock (frame : Bool)
  | cancelState (frame : Bool)
  | cancelCall (frame : Bool)
  | cancelStore (frame : Bool)
  | cancelUnlock (frame : Bool)
deriving DecidableEq, Repr

open Pc

inductive Entry where
  | schedule (task : Nat)
  | frame
  /-- the scheduler answers the request by `process_tasks` -/
  | answer
  /-- `process_tasks`, without a request -/
  | process
deriving DecidableEq, Repr

def enter : Entry → Shared → Option (Shared × Pc)
  -- a task that was scheduled before is a panic
  | .schedule task, s => if task ∈ s.known then none else some ({ s with known := task :: s.known }, taskInc task)
  | .frame, s => some (s, frameInc)
  | .answer, s => if s.request then some ({ s with request := false }, procLoad) else none
  | .process, s => some (s, procLoad)

/-- `next_frame_deadline_.try_load`. -/
def tryLoad (luck : Bool) (s : Shared) : Bool := !s.storing || luck

/-- Where `cancel_async_task_processing_` returns to. -/
def afterCancel (frame : Bool) : Option Pc := if frame then some frameLock else none

def advance (precise luck : Bool) (s : Shared) : Pc → Option (Shared × Option Pc)
  | taskInc task =>
    some ({ s with pendingTasks := s.pendingTasks + 1 },
      some (if s.pendingTasks + 1 ≠ 1 then taskPush task else taskLoad task))
  | taskPush task => some ({ s with taskQueue := s.taskQueue ++ [task] }, none)
  | taskLoad task => some (s, some (if tryLoad luck s then taskAllow task else taskPush task))
  | taskAllow task => some (s, some (if !precise || luck then taskLock task else taskPushLate task))
  | taskPushLate task => some ({ s with taskQueue := s.taskQueue ++ [task] }, some taskFrames)
  | taskFrames => some (s, if s.pendingFrames = 0 then some asyncLoad else none)
  | taskLock task =>
    if s.pipelineLocked then some (s, some (taskPush task))
    else some ({ s with pipelineLocked := true }, some (taskRun task))
  | taskRun task => some ({ s with finished := task :: s.finished }, some taskDec)
  | taskDec => some ({ s with pendingTasks := s.pendingTasks - 1 }, some taskPreempt)
  | taskPreempt => some (s, some (taskUnlock (s.pendingFrames ≠ 0)))
  | taskUnlock preempted => some ({ s with pipelineLocked := false }, some (taskPending preempted))
  | taskPending preempted =>
    some (s, if !preempted && s.pendingTasks ≠ 0 then some asyncLoad else none)
  | procLoad => some (s, some (if tryLoad luck s then procLock else procReset false))
  | procLock =>
    if s.pipelineLocked then some (s, some (procReset false))
    else some ({ s with pipelineLocked := true }, some procRunning)
  | procRunning => some ({ s with procState := .running }, some procAllow)
  | procAllow => some (s, some (if !precise || luck then procFrames else procUnlock false))
  | procFrames => some (s, some (if s.pendingFrames ≠ 0 then procUnlock true else procPop))
  | procPop =>
    match s.taskQueue, luck with
    | task :: queue, true => some ({ s with taskQueue := queue }, some (procRun task))
    | _, _ => some (s, some (procUnlock false))
  | procRun task => some ({ s with finished := task :: s.finished }, some procDec)
  | procDec => some ({ s with pendingTasks := s.pendingTasks - 1 }, some procAllow)
  | procUnlock preempted => some ({ s with pipelineLocked := false }, some (procPending preempted))
  | procPending preempted => some (s, some (procReset (!preempted && s.pendingTasks ≠ 0)))
  | procReset needReschedule =>
    some ({ s with procState := .notScheduled }, if needReschedule then some asyncLoad else none)
  | frameInc => some ({ s with pendingFrames := s.pendingFrames + 1 }, some (cancelLock true))
  | frameLock =>
    if s.pipelineLocked then none else some ({ s with pipelineLocked := true }, some (frameSub true))
  | frameSub first =>
    some (s, some (if !precise then frameUnlock else if first then frameStore else frameCheck))
  | frameStore => some ({ s with storing := true }, some frameStored)
  | frameStored => some ({ s with storing := false }, some frameCheck)
  | frameCheck => some (s, some (if s.pendingTasks ≠ 0 && luck then framePop else frameNext))
  | framePop =>
    match s.taskQueue, luck with
    | task :: queue, true => some ({ s with taskQueue := queue }, some (frameRun task))
    | _, _ => some (s, some frameNext)
  | frameRun task => some ({ s with finished := task :: s.finished }, some frameTaskDec)
  | frameTaskDec => some ({ s with pendingTasks := s.pendingTasks - 1 }, some frameMore)
  | frameMore => some (s, some (if luck then framePop else frameNext))
  | frameNext => some (s, some (if luck then frameSub false else frameStats))
  | frameStats =>
    if luck && !s.schedulerLocked then some ({ s with schedulerLocked := true }, some frameStatsUnlock)
    else some (s, some frameUnlock)
  | frameStatsUnlock => some ({ s with schedulerLocked := false }, some frameUnlock)
  | frameUnlock => some ({ s with pipelineLocked := false }, some frameDec)
  | frameDec =>
    some ({ s with pendingFrames := s.pendingFrames - 1 }, if s.pendingFrames - 1 = 0 then some framePending else none)
  | framePending => some (s, if s.pendingTasks ≠ 0 then some asyncLoad else none)
  | asyncLoad => some (s, if tryLoad luck s then some asyncLock else none)
  | asyncLock =>
    if s.schedulerLocked then some (s, none)
    else some ({ s with schedulerLocked := true }, some asyncState)
  | asyncState => some (s, some (if s.procState = .notScheduled then asyncCall else asyncUnlock))
  | asyncCall => some ({ s with request := true }, some asyncStore)
  | asyncStore => some ({ s with procState := .scheduled }, some asyncUnlock)
  | asyncUnlock => some ({ s with schedulerLocked := false }, some asyncFrames)
  | asyncFrames => some (s, if s.pendingFrames ≠ 0 then some (cancelLock false) else none)
  | cancelLock frame =>
    if s.schedulerLocked then some (s, afterCancel frame)
    else some ({ s with schedulerLocked := true }, some (cancelState frame))
  | cancelState frame =>
    some (s, some (if s.procState = .scheduled then cancelCall frame else cancelUnlock frame))
  | cancelCall frame => some ({ s with request := false }, some (cancelStore frame))
  | cancelStore frame => some ({ s with procState := .notScheduled }, some (cancelUnlock frame))
  | cancelUnlock frame => some ({ s with schedulerLocked := false }, afterCancel frame)

abbrev Calls := Pool Shared Pc

abbrev Step (precise : Bool) : Calls → Pool.Label Entry Bool Pc → Calls → Prop := Pool.Step enter (advance precise)

end Roc.Pipeline.Loop
