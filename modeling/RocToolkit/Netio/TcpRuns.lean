import RocToolkit.Netio.TcpTermination

/-!
# RocToolkit.Netio.TcpRuns

Whole runs of a TCP connection port. In a fair run in which no result of a connect or a poll sees
`State_Terminating`, every termination that begins is completed and the states follow each other in order;
in a fair run in which one does, the termination is undone. Fairness is about the event loop going on with
what it does and calling back what libuv has for it, and about the thread in `async_terminate`.
-/

namespace Roc.Netio.TcpConnection

open ConnectionState LoopPc

/-- The order of the states from `State_Terminating` on; the other states have no place in it. -/
def ConnectionState.stage : ConnectionState → Nat
  | .terminating => 1
  | .terminated => 2
  | .closing => 3
  | .closed => 4
  | _ => 0

section States

variable {c c' : Conn}

theorem disconnectSocket_eq (c : Conn) (shutdownOk closeOk : Bool) : ∃ socketValid wasFailed,
    c.disconnectSocket shutdownOk closeOk =
      { c with socketValid, wasFailed } := by
  unfold Conn.disconnectSocket
  split
  · exact ⟨_, _, rfl⟩
  · exact ⟨_, _, rfl⟩

theorem begin_state {call : Call} (hs : begin c call = some c') : c'.state = c.state ∧ c'.term = c.term := by
  cases call
  case finishTerminate shutdownOk closeOk =>
    obtain ⟨_, _, heq⟩ := disconnectSocket_eq { c with pollInitialized := false, loop := .finishCas }
      shutdownOk closeOk
    simp only [begin, heq] at hs
    split at hs
    · split at hs <;> cases hs <;> exact ⟨rfl, rfl⟩
    · cases hs
  all_goals
    simp only [begin] at hs
    repeat' split at hs
    all_goals cases hs
    all_goals exact ⟨rfl, rfl⟩

theorem goOn_state (c : Conn) (k : Cont) : (c.goOn k).state = c.state ∧ (c.goOn k).term = c.term := by
  cases k <;> exact ⟨rfl, rfl⟩

theorem setFlags_term (c : Conn) (new : ConnectionState) : (c.setFlags new).term = c.term := by
  obtain ⟨est, failed, heq⟩ := setFlags_eq c new
  rw [heq]

theorem Inv.advance_state {e : Choice} (h : Inv c) (hs : TcpConnection.advance c e = some c') :
    c'.term = c.term ∧ (c'.state = c.state ∨
      (∃ new k, c.loop = .switchCas c.state new k ∧ c'.state = new) ∨
      (c.state = .terminating ∧ c'.state = .terminated)) := by
  unfold TcpConnection.advance at hs
  split at hs
  case h_1 => cases hs
  case h_2 new k hloop =>
    cases hs
    split
    · exact ⟨(goOn_state c k).2, .inl (goOn_state c k).1⟩
    · exact ⟨rfl, .inl rfl⟩
  case h_3 old new k hloop =>
    rcases maybeSwitch_cases c old new (not_ignored (h.fits hloop)) with ⟨hst, heq⟩ | ⟨-, heq⟩
    · rw [heq] at hs
      cases hs
      refine ⟨(goOn_state _ k).2.trans (setFlags_term c new), .inr (.inl ⟨new, k, ?_, (goOn_state _ k).1⟩)⟩
      rw [hst, hloop]
    · rw [heq] at hs
      cases hs
      exact ⟨setFlags_term c new, .inl (setFlags_state c new)⟩
  case h_4 => split at hs <;> cases hs <;> exact ⟨rfl, .inl rfl⟩
  case h_5 | h_6 =>
    obtain ⟨_, _, heq⟩ := startPolling_eq { c with socketValid := e.socketOk } e.initOk e.startOk
    simp only [heq] at hs
    split at hs
    · split at hs <;> cases hs <;> exact ⟨rfl, .inl rfl⟩
    · cases hs; exact ⟨rfl, .inl rfl⟩
  case h_7 => split at hs <;> cases hs <;> exact ⟨rfl, .inl rfl⟩
  case h_8 => cases hs
  case h_9 =>
    obtain ⟨_, _, heq⟩ := disconnectSocket_eq { c with pollInitialized := false, loop := .finishCas }
      e.shutdownOk e.closeOk
    simp only [heq] at hs
    split at hs <;> cases hs <;> exact ⟨rfl, .inl rfl⟩
  case h_10 hloop =>
    obtain ⟨hstate, -⟩ := h.of_finishing (by rw [hloop]; rfl)
    rcases maybeSwitch_cases c .terminating .terminated rfl with ⟨-, heq⟩ | ⟨hne, -⟩
    · rw [heq] at hs
      cases hs
      exact ⟨rfl, .inr (.inr ⟨hstate, rfl⟩)⟩
    · exact absurd hstate hne

/-- `async_terminate` has switched the state. -/
def TermPc.begun : TermPc → Bool
  | .switched | .sent => true
  | _ => false

theorem TermPc.stage_pos {t : TermPc} {s : ConnectionState} (h : t.fits s = true) (ht : t.begun = true) :
    s.stage ≠ 0 := by
  cases t <;> cases s <;> simp_all [TermPc.fits, TermPc.begun, stage]

theorem Inv.follows {l : Label} (h : Inv c) (hbegun : c.term.begun = true) (hs : Step c l c') :
    c'.term.begun = true ∧ (c'.state = c.state ∨ c'.state.stage = c.state.stage + 1) := by
  have hstage := TermPc.stage_pos h.term hbegun
  obtain ⟨-, hs⟩ := hs
  cases l with
  | begin call =>
    simp only [next] at hs
    split at hs
    · obtain ⟨hst, hterm⟩ := begin_state hs
      exact ⟨hterm ▸ hbegun, .inl hst⟩
    · cases hs
  | advance e =>
    obtain ⟨hterm, hst | ⟨new, k, hloop, rfl⟩ | ⟨hold, hnew⟩⟩ := h.advance_state hs
    · exact ⟨hterm ▸ hbegun, .inl hst⟩
    · refine ⟨hterm ▸ hbegun, .inr ?_⟩
      have hfits := h.fits hloop
      simp only [LoopPc.fits, Bool.and_eq_true] at hfits
      rcases onWay_cases hfits.1 with ⟨hst, -⟩ | ⟨hst, -⟩ | ⟨hst, hnew, -⟩ | ⟨hst, -⟩ | ⟨hu, hr, -⟩ | ⟨hst, hnew, -⟩
      · -- a port that is opened is not one that was closed
        have hready := ((h.closed hst).resolve_left (by simp [hloop])).2
        rw [hready] at hbegun
        cases hbegun
      · simp [hst, stage] at hstage
      · rcases hst with hst | hst | hst
        · simp [hst, stage] at hstage
        · simp [hst, stage] at hstage
        · rw [hst, hnew]; rfl
      · simp [hst, stage] at hstage
      · rw [if_pos hr] at hfits
        cases hst : c.state <;> simp_all [live, usable, stage]
      · rw [hst, hnew]; rfl
    · exact ⟨hterm ▸ hbegun, .inr (by rw [hold, hnew]; rfl)⟩
  | terminate failure =>
    simp only [next, TcpConnection.terminate] at hs
    cases ht : c.term <;> rw [ht] at hs hbegun
    case switched => cases hs; exact ⟨rfl, .inl rfl⟩
    case sent => cases hs
    all_goals cases hbegun
  | ioFailed =>
    simp only [next, Option.some.injEq] at hs
    rcases maybeSwitch_cases c .established .broken rfl with ⟨hst, -⟩ | ⟨-, heq⟩
    · simp [hst, stage] at hstage
    · rw [← hs, heq]
      exact ⟨(setFlags_term c .broken).symm ▸ hbegun, .inl (setFlags_state c .broken)⟩

end States

/-- What has to go on: the event loop in a method or callback, `async_terminate`, and the two callbacks of
libuv that a termination waits for. -/
inductive Party where
  | loop
  | terminator
  | wakeup
  | pollClosed
deriving DecidableEq, Repr

def Party.acts : Party → Label → Prop
  | .loop, .advance _ => True
  | .terminator, .terminate _ => True
  | .wakeup, .begin .startTerminate => True
  | .pollClosed, .begin (.finishTerminate _ _) => True
  | _, _ => False

section Progress

variable {c c' : Conn}

def LoopPc.rank : LoopPc → Nat
  | .idle => 0
  | .finishCas => 1
  | .finish => 2
  | .switchLoad _ _ => 2
  | .switchCas _ _ _ => 3
  | .body _ => 4

def work (c : Conn) : Nat :=
  20 * (c.term == .switched).toNat + 10 * c.wakeup.toNat + 5 * (c.pollInitialized && c.pollClosing).toNat + c.loop.rank

def helpful (c : Conn) : Party :=
  if c.term = .switched then .terminator
  else if c.loop ≠ .idle then .loop
  else if c.wakeup then .wakeup
  else .pollClosed

theorem Inv.advance_possible (h : Inv c) (hbusy : c.loop ≠ .idle) (e : Choice) :
    ∃ c', TcpConnection.advance c e = some c' := by
  have hfits := h.loop
  unfold TcpConnection.advance
  split
  case h_1 hloop => exact absurd hloop hbusy
  case h_2 => exact ⟨_, rfl⟩
  case h_3 => split <;> exact ⟨_, rfl⟩
  case h_4 => split <;> exact ⟨_, rfl⟩
  case h_5 | h_6 => split; split; all_goals exact ⟨_, rfl⟩
  case h_7 => split <;> exact ⟨_, rfl⟩
  case h_8 hloop =>
    rw [hloop] at hfits
    cases hfits
  case h_9 => split <;> exact ⟨_, rfl⟩
  case h_10 => split <;> exact ⟨_, rfl⟩

theorem Inv.possible (h : Inv c) (hstate : c.state = .terminating) : ∃ l c', (helpful c).acts l ∧ Step c l c' := by
  obtain ⟨hsem, hopen, -⟩ := h.of_terminating hstate
  unfold helpful
  split
  case isTrue ht =>
    obtain ⟨c', hs⟩ : ∃ c', next c (.terminate false) = some c' := by
      simp only [next, TcpConnection.terminate, ht]
      exact ⟨_, rfl⟩
    exact ⟨.terminate false, c', trivial, h.alive, hs⟩
  split
  case isTrue hbusy =>
    obtain ⟨c', hs⟩ := h.advance_possible hbusy ⟨true, true, true, true, true, true, true⟩
    exact ⟨.advance _, c', trivial, h.alive, hs⟩
  rename_i hswitched hidle
  rw [ne_eq, not_not] at hidle
  split
  case isTrue hw =>
    obtain ⟨c', hs⟩ : ∃ c', next c (.begin .startTerminate) = some c' := by
      simp only [next, if_pos hidle, TcpConnection.begin, hw, hsem, hopen, hstate]
      cases c.pollInitialized <;> exact ⟨_, rfl⟩
    exact ⟨.begin .startTerminate, c', trivial, h.alive, hs⟩
  case isFalse hw =>
    have hpoll : (c.pollInitialized && c.pollClosing) = true := by
      have := (duty_iff.mp h.duty).1
      simpa [hstate, hswitched, hw, hidle, finishing] using this
    obtain ⟨c', hs⟩ : ∃ c', next c (.begin (.finishTerminate true true)) = some c' := by
      simp only [next, if_pos hidle, TcpConnection.begin, hpoll, hstate]
      exact ⟨_, rfl⟩
    exact ⟨.begin (.finishTerminate true true), c', trivial, h.alive, hs⟩

theorem Inv.begin_moves {call : Call} (h : Inv c) (hstate : c.state = .terminating) (hidle : c.loop = .idle)
    (hs : TcpConnection.begin c call = some c') :
    work c' < work c ∨ (work c' = work c ∧ helpful c' = helpful c ∧ ¬ (helpful c).acts (.begin call)) := by
  obtain ⟨-, hopen, -⟩ := h.of_terminating hstate
  have hother : call ≠ .startTerminate → (∀ a b, call ≠ .finishTerminate a b) → ¬ (helpful c).acts (.begin call) := by
    intro hstart hfinish
    unfold helpful
    split
    · simp [Party.acts]
    split
    · simp [Party.acts]
    split
    · cases call <;> simp_all [Party.acts]
    · cases call <;> simp_all [Party.acts]
  cases call with
  | open_ | accept | connect | asyncClose => simp [TcpConnection.begin, hstate] at hs
  | closed => simp [TcpConnection.begin, hopen] at hs
  | poll failed writable connected =>
    simp [TcpConnection.begin, hstate] at hs
    rw [← hs.2]
    exact .inr ⟨rfl, rfl, hother (by simp) (by simp)⟩
  | attachTerminateHandler =>
    simp only [TcpConnection.begin] at hs
    split at hs <;> cases hs
    exact .inr ⟨rfl, rfl, hother (by simp) (by simp)⟩
  | startTerminate =>
    left
    simp only [TcpConnection.begin] at hs
    split at hs
    case isFalse => cases hs
    rename_i hc
    simp only [Bool.and_eq_true] at hc
    obtain ⟨-, -, hpoll, -⟩ := h.of_wakeup hc.1.1
    rw [if_neg (not_not_intro hstate)] at hs
    split at hs
    case isTrue hp =>
      cases hs
      simp [work, hc.1.1, hp, hidle, rank]
      omega
    case isFalse hp =>
      cases hs
      simp [work, hc.1.1, hp, hidle, rank]
  | finishTerminate shutdownOk closeOk =>
    left
    simp only [TcpConnection.begin] at hs
    split at hs
    case isFalse => cases hs
    rename_i hc
    rw [if_neg (not_not_intro hstate)] at hs
    obtain ⟨_, _, heq⟩ := disconnectSocket_eq { c with pollInitialized := false, loop := .finishCas } shutdownOk closeOk
    rw [heq] at hs
    cases hs
    simp [work, hc, hidle, rank]

theorem work_setFlags (c : Conn) (new : ConnectionState) (pc : LoopPc) :
    work { c.setFlags new with loop := pc } = work { c with loop := pc } := by
  obtain ⟨est, failed, heq⟩ := setFlags_eq c new
  rw [heq]
  rfl

/-- `accept` or `connect` returns or goes on to its last switch: it is not in the way any more. -/
theorem Inv.work_making {pc : LoopPc} (h : Inv c) (hmaking : c.loop.making = true) (hpc : pc.rank < 4)
    (socketValid pollInitialized pollStarted : Bool) :
    work { c with
      socketValid := socketValid
      pollInitialized := pollInitialized
      pollStarted := pollStarted
      loop := pc } < work c := by
  have hclosing := h.making_open hmaking
  have hrank : c.loop.rank = 4 := by
    rcases making_iff.mp hmaking with hloop | hloop <;> rw [hloop] <;> rfl
  simp only [work, hclosing, hrank, Bool.and_false]
  omega

theorem Inv.advance_moves {e : Choice} (h : Inv c) (hstate : c.state = .terminating)
    (htimely : Timely c (.advance e)) (hs : TcpConnection.advance c e = some c') :
    c'.state = .terminated ∨ work c' < work c := by
  have hfits := h.loop
  rw [hstate] at hfits
  unfold TcpConnection.advance at hs
  split at hs
  case h_1 => cases hs
  case h_2 new k hloop =>
    rw [hloop] at hfits
    exact absurd hstate (htimely new k hloop (onWay_result hfits (.inr rfl)).2.1)
  case h_3 old new k hloop =>
    right
    rw [hloop] at hfits
    simp only [LoopPc.fits, Bool.and_eq_true] at hfits
    have hr := (onWay_result hfits.1 (.inr rfl)).2.1
    rw [if_pos hr] at hfits
    have hne : c.state ≠ old := by
      rintro rfl
      rw [hstate] at hfits
      cases hfits.2
    rcases maybeSwitch_cases c old new (not_ignored (h.fits hloop)) with ⟨hst, -⟩ | ⟨-, heq⟩
    · exact absurd hst hne
    · rw [heq] at hs
      cases hs
      rw [work_setFlags]
      simp [work, hloop, LoopPc.rank]
  case h_4 hloop => rw [hloop] at hfits; cases hfits
  case h_5 hloop | h_6 hloop =>
    right
    have hmaking : c.loop.making = true := by rw [hloop]; rfl
    obtain ⟨_, _, heq⟩ := startPolling_eq { c with socketValid := e.socketOk } e.initOk e.startOk
    simp only [heq] at hs
    split at hs
    · split at hs <;> cases hs <;> exact h.work_making hmaking (by decide) _ _ _
    · cases hs; exact h.work_making hmaking (by decide) _ _ _
  case h_7 hloop => rw [hloop] at hfits; cases hfits
  case h_8 => cases hs
  case h_9 hloop =>
    right
    obtain ⟨-, -, -, hpoll⟩ := h.of_finishing (by rw [hloop]; rfl)
    obtain ⟨_, _, heq⟩ := disconnectSocket_eq { c with pollInitialized := false, loop := .finishCas }
      e.shutdownOk e.closeOk
    rw [if_neg (not_not_intro hstate), heq] at hs
    cases hs
    simp [work, hloop, LoopPc.rank, hpoll]
  case h_10 =>
    left
    rcases maybeSwitch_cases c .terminating .terminated rfl with ⟨-, heq⟩ | ⟨hne, -⟩
    · rw [heq] at hs
      cases hs
      rfl
    · exact absurd hstate hne

theorem terminating_progress : Execution.Progress Step Timely Party.acts
    (fun c => Inv c ∧ c.state = .terminating) (fun c => c.state = .terminated) work helpful where
  possible _ h _ := h.1.possible h.2
  moves c l c' h _ htimely hs := by
    obtain ⟨hinv, hstate⟩ := h
    have hinv' := hinv.step htimely hs
    have hbegun : c.term.begun = true := by
      rcases hinv.term_of_terminating hstate with ht | ht <;> rw [ht] <;> rfl
    have hnext : c'.state = .terminating ∨ c'.state = .terminated := by
      rcases (hinv.follows hbegun hs).2 with hst | hst
      · exact .inl (hst.trans hstate)
      · rw [hstate] at hst
        cases hst' : c'.state <;> simp_all [stage]
    rcases hnext with hst | hst
    case inr => exact .inl hst
    obtain ⟨-, hs⟩ := hs
    cases l with
    | begin call =>
      simp only [next] at hs
      split at hs
      · exact .inr ⟨⟨hinv', hst⟩, hinv.begin_moves hstate ‹_› hs⟩
      · cases hs
    | advance e =>
      rcases hinv.advance_moves hstate htimely hs with hdone | hlt
      · exact .inl hdone
      · exact .inr ⟨⟨hinv', hst⟩, .inl hlt⟩
    | terminate failure =>
      refine .inr ⟨⟨hinv', hst⟩, .inl ?_⟩
      simp only [next, terminate] at hs
      cases ht : c.term <;> rw [ht] at hs hbegun
      case switched =>
        cases hs
        simp only [work, ht, (hinv.of_switched ht).1, Nat.add_lt_add_iff_right]
        decide
      case sent => cases hs
      all_goals cases hbegun
    | ioFailed =>
      simp only [next, Option.some.injEq] at hs
      rcases maybeSwitch_cases c .established .broken rfl with ⟨hest, -⟩ | ⟨-, heq⟩
      · rw [hstate] at hest
        cases hest
      · rw [heq] at hs
        obtain ⟨est, failed, hflags⟩ := setFlags_eq c .broken
        rw [hflags] at hs
        subst hs
        refine .inr ⟨⟨hinv', hst⟩, .inr ⟨rfl, rfl, ?_⟩⟩
        cases helpful c <;> exact id

end Progress

/-- A termination cannot be undone: once the state is `State_Terminating` it only goes on, one state after
the other; no check panics; every termination is completed; and the handler is called once, when it is. -/
structure Terminates (e : Execution Initial Step) : Prop where
  follows : ∀ n m, n ≤ m → (e.state n).state = .terminating → (e.state m).state.stage ≠ 0 ∧
    ((e.state (m + 1)).state = (e.state m).state ∨
      (e.state (m + 1)).state.stage = (e.state m).state.stage + 1)
  alive : ∀ n, (e.state n).panicked = false
  completes : ∀ n, (e.state n).state = .terminating → ∃ m, n ≤ m ∧ (e.state m).state = .terminated
  calls : ∀ n, (e.state n).handlerCalls = if (e.state n).finished then (e.state n).terminateHandler.toNat else 0

section Undone

variable {c c' : Conn}

/-- A result is about to overwrite `State_Terminating`. -/
structure Undoing (new : ConnectionState) (k : Cont) (c : Conn) : Prop where
  alive : c.panicked = false
  loop : c.loop = .switchCas .terminating new k
  state : c.state = .terminating
  begun : c.term = .switched ∨ c.term = .sent

theorem undoing_progress (new : ConnectionState) (k : Cont) : Execution.Progress Step (fun _ _ => True)
    Party.acts (Undoing new k) (fun c => c.state = new) (fun _ => 0) fun _ => .loop where
  possible c h _ := by
    have hs : ∃ c', advance c ⟨true, true, true, true, true, true, true⟩ = some c' := by
      simp only [advance, h.loop]
      split <;> exact ⟨_, rfl⟩
    obtain ⟨c', hs⟩ := hs
    exact ⟨.advance _, c', trivial, h.alive, hs⟩
  moves c l c' h _ _ hs := by
    obtain ⟨-, hs⟩ := hs
    cases l with
    | begin call => simp [next, h.loop] at hs
    | advance e =>
      left
      simp only [next, advance, h.loop] at hs
      rcases maybeSwitch_cases c .terminating new rfl with ⟨-, heq⟩ | ⟨hne, -⟩
      · rw [heq] at hs
        cases hs
        exact (goOn_state _ k).1
      · exact absurd h.state hne
    | terminate failure =>
      refine .inr ⟨?_, .inr ⟨rfl, rfl, id⟩⟩
      simp only [next, terminate] at hs
      rcases h.begun with ht | ht <;> rw [ht] at hs <;> cases hs
      exact ⟨h.alive, h.loop, h.state, .inr rfl⟩
    | ioFailed =>
      refine .inr ⟨?_, .inr ⟨rfl, rfl, id⟩⟩
      simp only [next, Option.some.injEq] at hs
      rcases maybeSwitch_cases c .established .broken rfl with ⟨hest, -⟩ | ⟨-, heq⟩
      · rw [h.state] at hest
        cases hest
      · obtain ⟨est, failed, hflags⟩ := setFlags_eq c .broken
        rw [heq, hflags] at hs
        subst hs
        exact ⟨h.alive, h.loop, h.state, h.begun⟩

theorem Inv.undoing {e : Choice} {new : ConnectionState} {k : Cont} (h : Inv c)
    (hstate : c.state = .terminating) (hloop : c.loop = .switchLoad new k) (hr : new.result = true)
    (hs : TcpConnection.advance c e = some c') : Undoing new k c' := by
  have hne : c.state ≠ new := by
    rintro rfl
    rw [hstate] at hr
    cases hr
  simp only [TcpConnection.advance, hloop, if_neg hne, Option.some.injEq] at hs
  subst hs
  exact ⟨h.alive, by rw [hstate], hstate, h.term_of_terminating hstate⟩

end Undone

section Runs

variable (e : Execution Initial Step)

/-- In a fair run where a termination cannot be undone, no result of a connect or a poll sees
`State_Terminating`: before the first that did, the invariant holds. -/
theorem Terminates.timely {e : Execution Initial Step} (h : Terminates e) (hfair : e.Fair Party.acts)
    (n : Nat) : ∀ l, e.action n = some l → Timely (e.state n) l := by
  induction n using Nat.strongRecOn with
  | _ n ih =>
    intro l hl
    have hinv : Inv (e.state n) := e.invariant_until (fun _ => Inv.initial) (fun _ _ _ hI ht hs => hI.step ht hs) n ih
    cases l with
    | advance choice =>
      intro new k hloop hr hstate
      have hundoing := hinv.undoing hstate hloop hr (e.step_of_action hl).2
      obtain ⟨m, hm, hst⟩ := (undoing_progress new k).eventually hfair (fun _ _ _ => trivial) hundoing
      have hstage := (h.follows n m (by omega) hstate).1
      rw [hst] at hstage
      cases new <;> first | exact hstage rfl | cases hr
    | _ => trivial

theorem begun_of_terminating {e : Execution Initial Step} (hinv : ∀ n, Inv (e.state n)) {n m : Nat}
    (hm : n ≤ m) (hstate : (e.state n).state = .terminating) : (e.state m).term.begun = true := by
  induction hm with
  | refl => rcases (hinv n).term_of_terminating hstate with ht | ht <;> rw [ht] <;> rfl
  | @step m hm ih =>
    cases ha : e.action m with
    | none => rw [e.state_of_pause ha]; exact ih
    | some l => exact ((hinv m).follows ih (e.step_of_action ha)).1

/-- In a fair run terminations cannot be undone if and only if no result of a connect or a poll, about to
be stored, finds the connection in `State_Terminating`. -/
theorem terminates_iff (hfair : e.Fair Party.acts) :
    Terminates e ↔ ∀ n l, e.action n = some l → Timely (e.state n) l := by
  constructor
  · exact fun h => h.timely hfair
  · intro htimely
    have hinv : ∀ n, Inv (e.state n) :=
      e.invariant (fun _ => Inv.initial) (fun _ _ _ hI ht hs => hI.step ht hs) htimely
    refine ⟨?_, fun n => (hinv n).alive, ?_, fun n => (hinv n).calls⟩
    · intro n m hm hstate
      have hbegun := begun_of_terminating hinv hm hstate
      refine ⟨TermPc.stage_pos (hinv m).term hbegun, ?_⟩
      cases ha : e.action m with
      | none => exact .inl (congrArg Conn.state (e.state_of_pause ha))
      | some l => exact ((hinv m).follows hbegun (e.step_of_action ha)).2
    · intro n hstate
      exact terminating_progress.eventually hfair htimely ⟨hinv n, hstate⟩

/-- The labels one after another, `none` if one of them cannot happen. -/
def run : Conn → List Label → Option Conn
  | c, [] => some c
  | c, l :: ls => if c.panicked then none else (next c l).bind (run · ls)

theorem reaches_run {c c' : Conn} {ls : List Label} (h : Reaches Initial Step (fun _ _ => True) c)
    (hrun : run c ls = some c') : Reaches Initial Step (fun _ _ => True) c' := by
  induction ls generalizing c with
  | nil => cases hrun; exact h
  | cons l ls ih =>
    simp only [run] at hrun
    split at hrun
    · cases hrun
    · obtain ⟨c1, hnext, hrest⟩ := Option.bind_eq_some_iff.mp hrun
      exact ih (h.step (a := l) trivial ⟨by simpa using ‹¬ c.panicked = true›, hnext⟩) hrest

def allWell : Choice := ⟨true, true, true, true, false, true, true⟩

/-- Opening a client port and connecting it, up to where `connect` returns. -/
def connecting : List Label :=
  [.begin .open_, .advance allWell, .advance allWell, .advance allWell, .advance allWell, .advance allWell,
    .begin .connect, .advance allWell, .advance allWell, .advance allWell]

def terminating : List Label := [.terminate false, .terminate false, .terminate false, .begin .startTerminate,
    .begin (.finishTerminate true true), .advance allWell]

def terminatedState (n : Nat) : Conn :=
  (run { type := .client } ((connecting ++ terminating).take n)).getD { type := .client }

theorem terminatedState_step (i : Fin (connecting ++ terminating).length) :
    Step (terminatedState i) ((connecting ++ terminating).get i) (terminatedState (i + 1)) := by
  have : ∀ i : Fin (connecting ++ terminating).length, (terminatedState i).panicked = false ∧
      next (terminatedState i) ((connecting ++ terminating).get i) = some (terminatedState (i + 1)) := by
    decide
  exact this i

theorem terminatedState_of_le {n : Nat} (h : (connecting ++ terminating).length ≤ n) :
    terminatedState n = terminatedState (connecting ++ terminating).length := by
  simp only [terminatedState, List.take_of_length_le h, List.take_length]

def terminated : Execution Initial Step where
  state := terminatedState
  action n := (connecting ++ terminating)[n]?
  start := ⟨.client, rfl⟩
  next n := by
    by_cases hn : n < (connecting ++ terminating).length
    · rw [List.getElem?_eq_getElem hn]
      exact terminatedState_step ⟨n, hn⟩
    · rw [List.getElem?_eq_none (by omega)]
      exact (terminatedState_of_le (by omega)).trans (terminatedState_of_le (by omega)).symm

theorem terminates_terminated : Terminates terminated := by
  refine (terminates_iff terminated ?_).mpr ?_
  · intro p n
    refine ⟨n + (connecting ++ terminating).length, by omega, .inl ?_⟩
    rintro ⟨l, c', hacts, hs⟩
    have hend : terminated.state (n + (connecting ++ terminating).length) =
        terminatedState (connecting ++ terminating).length := terminatedState_of_le (by omega)
    rw [hend] at hs
    obtain ⟨-, hs⟩ := hs
    unfold Party.acts at hacts
    split at hacts
    case h_5 => exact hacts
    all_goals cases hs
  · intro n l hl
    have hquiet : ∀ i : Fin (connecting ++ terminating).length, (terminatedState i).state = .terminating →
        (terminatedState i).loop = .idle ∨ (terminatedState i).loop = .finishCas := by
      decide
    have hn : n < (connecting ++ terminating).length := (List.getElem?_eq_some_iff.mp hl).1
    cases l with
    | advance e =>
      intro new k hloop _ hstate
      rcases hquiet ⟨n, hn⟩ hstate with hl | hl <;> exact nomatch hl.symm.trans hloop
    | _ => trivial

/-- `poll_cb_` has found that the connection is made when another thread terminates the port. It goes on to
see `State_Terminating`, switches to `State_Established`, and `start_terminate_cb_` panics. -/
theorem connected_undone : ∃ c₁ c₂ c₃ : Conn, Reaches Initial Step (fun _ _ => True) c₁ ∧
    c₁.state = .terminating ∧ Step c₁ (.advance allWell) c₂ ∧ c₂.state = .established ∧
    Step c₂ (.begin .startTerminate) c₃ ∧ c₃.panicked = true := by
  have h := reaches_run (.start ⟨.client, rfl⟩)
    (show run _ (connecting ++ [.begin (.poll false true true), .terminate false, .terminate false,
      .terminate false, .advance allWell]) = _ from rfl)
  exact ⟨_, _, _, h, rfl, ⟨rfl, rfl⟩, rfl, ⟨rfl, rfl⟩, rfl⟩

end Runs

end Roc.Netio.TcpConnection
