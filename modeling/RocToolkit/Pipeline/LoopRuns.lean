import RocToolkit.Pipeline.Loop

/-!
# RocToolkit.Pipeline.LoopRuns

Runs of the pipeline loop. The locks, `pending_frames_` and `pending_tasks_` are counts of the calls at certain places
of the code, and every task that was scheduled is in one place; every step keeps this up.
-/

namespace Roc.Pipeline.Loop

open Pc Pool Multiset Bool

/-! ## Kinds of places -/

namespace Pc

def holdsPipeline : Pc → Bool
  | taskRun _ | taskDec | taskPreempt | taskUnlock _ | procRunning | procAllow | procFrames | procPop
  | procRun _ | procDec | procUnlock _ | frameSub _ | frameStore | frameStored | frameCheck | framePop
  | frameRun _ | frameTaskDec | frameMore | frameNext | frameStats | frameStatsUnlock | frameUnlock => true
  | _ => false

def holdsScheduler : Pc → Bool
  | asyncState | asyncCall | asyncStore | asyncUnlock | cancelState _ | cancelCall _ | cancelStore _
  | cancelUnlock _ | frameStatsUnlock => true
  | _ => false

/-- The frame is counted in `pending_frames_`. -/
def inFrame : Pc → Bool
  | cancelLock frame | cancelState frame | cancelCall frame | cancelStore frame | cancelUnlock frame => frame
  | frameLock | frameSub _ | frameStore | frameStored | frameCheck | framePop | frameRun _ | frameTaskDec
  | frameMore | frameNext | frameStats | frameStatsUnlock | frameUnlock | frameDec => true
  | _ => false

def isStoring : Pc → Bool
  | frameStored => true
  | _ => false

/-- The task is counted in `pending_tasks_`, and not in the queue. -/
def hasTask : Pc → Bool
  | taskPush _ | taskLoad _ | taskAllow _ | taskPushLate _ | taskLock _ | taskRun _ | taskDec
  | procRun _ | procDec | frameRun _ | frameTaskDec => true
  | _ => false

def task : Pc → Option Nat
  | taskInc task | taskPush task | taskLoad task | taskAllow task | taskPushLate task | taskLock task
  | taskRun task | procRun task | frameRun task => some task
  | _ => none

end Pc

variable {precise luck : Bool} {s s' : Shared} {pc : Pc} {next : Option Pc} {rest : Multiset Pc}

/-! ## What a step does to the counters -/

structure Balance (s : Shared) (pc : Pc) (s' : Shared) (next : Option Pc) : Prop where
  pipeline : s'.pipelineLocked.toNat + (holdsPipeline pc).toNat = s.pipelineLocked.toNat + weight holdsPipeline next
  scheduler : s'.schedulerLocked.toNat + (holdsScheduler pc).toNat =
    s.schedulerLocked.toNat + weight holdsScheduler next
  storing : s'.storing.toNat + (isStoring pc).toNat = s.storing.toNat + weight isStoring next
  frames : s'.pendingFrames + (inFrame pc).toNat = s.pendingFrames + weight inFrame next
  tasks : s'.pendingTasks - s'.taskQueue.length + (hasTask pc).toNat =
    s.pendingTasks - s.taskQueue.length + weight hasTask next

theorem advance_balance (h : advance precise luck s pc = some (s', next))
    (hpipeline : holdsPipeline pc = true → s.pipelineLocked = true)
    (hscheduler : holdsScheduler pc = true → s.schedulerLocked = true)
    (hstoring : holdsPipeline pc = true → s.storing = isStoring pc) : Balance s pc s' next := by
  cases pc
  all_goals
    simp only [advance, afterCancel] at h
    repeat' split at h
    all_goals first
      | (cases h; done)
      | (cases h; exact ⟨rfl, rfl, rfl, rfl, rfl⟩)
      | (cases h
         constructor <;>
           simp_all [weight, holdsPipeline, holdsScheduler, isStoring, inFrame, hasTask] <;> omega)

structure Counted (c : Calls) : Prop where
  pipeline : count holdsPipeline c.calls = c.shared.pipelineLocked.toNat
  scheduler : count holdsScheduler c.calls = c.shared.schedulerLocked.toNat
  storing : count isStoring c.calls = c.shared.storing.toNat
  frames : c.shared.pendingFrames = count inFrame c.calls
  tasks : c.shared.pendingTasks = c.shared.taskQueue.length + count hasTask c.calls

theorem locked_of_count {p : Pc → Bool} {locked : Bool}
    (h : count p (pc ::ₘ rest) = locked.toNat) (hpc : p pc = true) : locked = true ∧ count p rest = 0 := by
  rw [count_cons, hpc] at h
  cases locked with
  | false => simp at h
  | true => exact ⟨rfl, by simpa using h⟩

theorem Counted.advance (h : Counted ⟨s, pc ::ₘ rest⟩)
    (ha : advance precise luck s pc = some (s', next)) : Counted ⟨s', resume next rest⟩ := by
  have hstore : holdsPipeline pc = true → s.storing = isStoring pc := by
    intro hpc
    -- the others do not hold the mutex, so none of them is storing
    have hle : count isStoring rest ≤ count holdsPipeline rest :=
      count_le _ _ (fun pc => by cases pc <;> simp [isStoring, holdsPipeline]) rest
    have hs := h.storing
    rw [count_cons, Nat.le_zero.mp (hle.trans_eq (locked_of_count h.pipeline hpc).2), Nat.zero_add] at hs
    revert hs
    cases s.storing <;> cases isStoring pc <;> simp
  have hb := advance_balance ha (fun hpc => (locked_of_count h.pipeline hpc).1)
    (fun hpc => (locked_of_count h.scheduler hpc).1) hstore
  obtain ⟨hpipeline, hscheduler, hstoring, hframes, htasks⟩ := h
  obtain ⟨hpipeline', hscheduler', hstoring', hframes', htasks'⟩ := hb
  simp only [count_cons] at hpipeline hscheduler hstoring hframes htasks
  refine ⟨?_, ?_, ?_, ?_, ?_⟩ <;> simp only [count_resume]
  · omega
  · omega
  · omega
  · omega
  · omega

theorem Counted.enter {calls : Multiset Pc} {e : Entry} (h : Counted ⟨s, calls⟩)
    (he : enter e s = some (s', pc)) : Counted ⟨s', pc ::ₘ calls⟩ := by
  cases e
  all_goals simp only [Loop.enter] at he
  case' schedule => split at he; · cases he
  case' answer => split at he; rotate_left; · cases he
  all_goals
    cases he
    exact ⟨by simpa [holdsPipeline] using h.pipeline, by simpa [holdsScheduler] using h.scheduler,
      by simpa [isStoring] using h.storing, by simpa [inFrame] using h.frames, by simpa [hasTask] using h.tasks⟩

theorem Counted.step {c c' : Calls} {l : Pool.Label Entry Bool Pc} (h : Counted c) (hs : Step precise c l c') :
    Counted c' := by
  cases hs with
  | enter he => exact h.enter he
  | advance ha => exact h.advance ha

/-! ## Each task once -/

def inHand (next : Option Pc) : Multiset Nat :=
  match next.bind Pc.task with
  | none => 0
  | some task => {task}

structure Once (c : Calls) : Prop where
  nodup : c.shared.known.Nodup
  split : (c.shared.known : Multiset Nat) = c.shared.finished + c.shared.taskQueue + c.calls.filterMap Pc.task

theorem filterMap_cons : (pc ::ₘ rest).filterMap Pc.task = inHand (some pc) + rest.filterMap Pc.task := by
  unfold inHand
  rw [Option.bind_some]
  cases h : pc.task with
  | none => rw [filterMap_cons_none _ _ h, zero_add]
  | some task => rw [filterMap_cons_some _ _ _ h, singleton_add]

theorem filterMap_resume : (resume next rest).filterMap Pc.task = inHand next + rest.filterMap Pc.task := by
  cases next with
  | none => exact (zero_add _).symm
  | some pc => exact filterMap_cons

theorem advance_once (h : advance precise luck s pc = some (s', next)) :
    s'.known = s.known ∧ (s'.finished + s'.taskQueue + inHand next : Multiset Nat) =
      s.finished + s.taskQueue + inHand (some pc) := by
  cases pc
  all_goals
    simp only [advance, afterCancel] at h
    repeat' split at h
    all_goals first
      | (cases h; done)
      | (cases h; exact ⟨rfl, rfl⟩)
      | (cases h
         simp_all [inHand, Pc.task, ← cons_coe, ← coe_add, ← singleton_add,
           add_comm, add_left_comm, add_assoc])

theorem Once.step {c c' : Calls} {l : Pool.Label Entry Bool Pc} (h : Once c) (hs : Step precise c l c') : Once c' := by
  cases hs with
  | @enter s s' e pc calls he =>
    obtain ⟨hnodup, hsplit⟩ := h
    cases e with
    | schedule task =>
      simp only [enter] at he
      split at he
      · cases he
      · next hnew =>
        cases he
        refine ⟨List.nodup_cons.mpr ⟨hnew, hnodup⟩, ?_⟩
        simp only at hsplit ⊢
        rw [← cons_coe, hsplit, filterMap_cons_some Pc.task (taskInc task) calls rfl, add_cons]
    | frame | process =>
      cases he
      exact ⟨hnodup, by rw [filterMap_cons_none _ _ rfl]; exact hsplit⟩
    | answer =>
      simp only [enter] at he
      split at he
      · cases he
        exact ⟨hnodup, by rw [filterMap_cons_none _ _ rfl]; exact hsplit⟩
      · cases he
  | advance ha =>
    obtain ⟨hknown, hmove⟩ := advance_once ha
    refine ⟨hknown ▸ h.nodup, ?_⟩
    have hsplit := h.split
    simp only [filterMap_cons, filterMap_resume] at hsplit ⊢
    rw [hknown, hsplit, ← add_assoc, ← add_assoc, hmove]

/-! ## Every run -/

/-- In every run, tasks stranded or not: one call at most is in the pipeline, so a task is never run beside a frame or
another task; `pending_frames_` and `pending_tasks_` are the frames and tasks that there are; and every task that was
scheduled is finished, in the queue or in the hands of one call, once. -/
theorem exclusive_of_reaches {c : Calls} (h : Reaches (· = ⟨{}, 0⟩) (Step precise) (fun _ _ => True) c) :
    count holdsPipeline c.calls ≤ 1 ∧ count holdsScheduler c.calls ≤ 1 ∧
      c.shared.pendingFrames = count inFrame c.calls ∧
      c.shared.pendingTasks = c.shared.taskQueue.length + count hasTask c.calls ∧
      c.shared.known.Nodup ∧
      (c.shared.known : Multiset Nat) = c.shared.finished + c.shared.taskQueue + c.calls.filterMap Pc.task := by
  have hinv : Counted c ∧ Once c := by
    refine h.invariant (I := fun c => Counted c ∧ Once c) ?_ fun _ _ _ hi _ hs => ⟨hi.1.step hs, hi.2.step hs⟩
    rintro _ rfl
    exact ⟨⟨rfl, rfl, rfl, rfl, rfl⟩, List.nodup_nil, rfl⟩
  obtain ⟨hcounted, honce⟩ := hinv
  refine ⟨?_, ?_, hcounted.frames, hcounted.tasks, honce.nodup, honce.split⟩
  · exact hcounted.pipeline.trans_le (Bool.toNat_le _)
  · exact hcounted.scheduler.trans_le (Bool.toNat_le _)

def advanceMany (precise : Bool) : List Bool → Shared → Pc → Option (Shared × Option Pc)
  | [], s, pc => some (s, some pc)
  | luck :: lucks, s, pc =>
    match advance precise luck s pc, lucks with
    | some (s', some pc'), lucks => advanceMany precise lucks s' pc'
    | result, [] => result
    | _, _ => none

theorem reaches_advanceMany (lucks : List Bool) : ∀ {s s' : Shared} {pc : Pc} {next : Option Pc},
      Reaches (· = ⟨{}, 0⟩) (Step precise) (fun _ _ => True) ⟨s, pc ::ₘ rest⟩ →
      advanceMany precise lucks s pc = some (s', next) →
      Reaches (· = ⟨{}, 0⟩) (Step precise) (fun _ _ => True) ⟨s', Pool.resume next rest⟩ := by
  induction lucks with
  | nil =>
    intro s s' pc next h hr
    cases hr
    exact h
  | cons luck lucks ih =>
    intro s s' pc next h hr
    unfold advanceMany at hr
    split at hr
    · next ha => exact ih (.step h trivial (.advance ha)) hr
    · exact .step h trivial (.advance hr)
    · cases hr

/-- A task that comes while a frame is in the pipeline. -/
theorem exclusive_beside : ∃ c : Calls, c.shared.known = [1] ∧ c.shared.pipelineLocked = true ∧
    count holdsPipeline c.calls ≤ 1 := by
  have hframe := reaches_advanceMany (List.replicate 5 true)
    (.step (a := .enter .frame) (.start rfl : Reaches (· = ⟨{}, 0⟩) (Step true) (fun _ _ => True) _) trivial
      (.enter rfl)) rfl
  have htask := hframe.step (a := .enter (.schedule 1)) trivial (.enter rfl)
  exact ⟨_, rfl, rfl, (exclusive_of_reaches htask).1⟩

end Roc.Pipeline.Loop
