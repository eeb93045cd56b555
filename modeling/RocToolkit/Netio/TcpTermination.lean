import RocToolkit.Netio.TcpConnection

/-!
# RocToolkit.Netio.TcpTermination

Termination of a TCP connection. As long as no result of a connect or a poll gets to see
`State_Terminating` (`Timely`), a termination that has begun cannot be undone: exactly one party is in
charge of it (`duty`: the thread that calls `async_terminate`, the wakeup of the event loop, the closing
poll handle, or `finish_terminate_cb_`), and in a fair run the connection gets to `State_Terminated` with
one call of the handler. If such a result does see `State_Terminating`, then `maybe_switch_state_` lets it
through, and the termination is undone (`terminates_iff`).
-/

namespace Roc.Netio.TcpConnection

open ConnectionState LoopPc Conn

section Places

def ConnectionState.result : ConnectionState → Bool
  | .established | .refused | .broken => true
  | _ => false

def ConnectionState.live (s : ConnectionState) : Bool := s.usable && s != .terminating

/-- The states in which the event loop can be on its way to `new`, with `k` to follow. -/
def onWay (state new : ConnectionState) : Cont → Bool
  | .openBody => state == .closed && new == .opening
  | .acceptBody | .connectBody => state == .opened && new == .connecting
  | .closeBody => (state == .opening || state == .opened || state == .terminated) && new == .closing
  | .ret => (state == .opening && new == .opened) || (state.usable && new.result) ||
      (state == .closing && new == .closed)

def LoopPc.fits (state : ConnectionState) : LoopPc → Bool
  | .idle => true
  | .body .openBody => state == .opening
  | .body .acceptBody | .body .connectBody => state.usable
  | .body .closeBody => state == .closing
  | .body .ret => false
  | .switchLoad new k => onWay state new k
  | .switchCas old new k => onWay state new k && (if new.result then old.live else old == state)
  | .finish | .finishCas => state == .terminating

/-- Where `async_terminate` can be in a state. -/
def TermPc.fits (state : ConnectionState) : TermPc → Bool
  | .ready => state != .terminating && state != .terminated
  | .loaded old => state.live && old.live
  | .again => state.live
  | .switched => state == .terminating
  | .sent => state == .terminating || state == .terminated || state == .closing || state == .closed

/-- The event loop is in `finish_terminate_cb_`. -/
def LoopPc.finishing : LoopPc → Bool
  | .finish | .finishCas => true
  | _ => false

/-- The event loop is in `accept` or `connect`, after the switch to `State_Connecting`. -/
def LoopPc.making : LoopPc → Bool
  | .body .acceptBody | .body .connectBody => true
  | _ => false

/-- The event loop is in `open`, after the semaphore was initialized. -/
def LoopPc.opening : LoopPc → Bool
  | .switchLoad .opened _ | .switchCas _ .opened _ => true
  | _ => false

/-- The event loop is in `async_close`, before the switch to `State_Closing`. -/
def LoopPc.leaving : LoopPc → Bool
  | .switchLoad .closing _ | .switchCas _ .closing _ => true
  | _ => false

def needsSem (c : Conn) : Bool := c.state == .opened || c.state.usable || c.state == .terminated || c.loop.opening

def shut (c : Conn) : Bool := c.closeHandler && match c.loop with
  | .idle => (c.state == .closing && c.semInitialized) || (c.state == .closed && !c.semInitialized)
  | .switchLoad .closed .ret | .switchCas _ .closed .ret => c.state == .closing && !c.semInitialized
  | _ => false

end Places

def duty (c : Conn) : Nat := (c.term == .switched).toNat + c.wakeup.toNat + (c.pollInitialized && c.pollClosing).toNat +
    c.loop.finishing.toNat

def Conn.finished (c : Conn) : Bool := c.term == .sent && c.state != .terminating

structure Inv (c : Conn) : Prop where
  alive : c.panicked = false
  loop : c.loop.fits c.state = true
  term : c.term.fits c.state = true
  duty : duty c = (c.state == .terminating).toNat
  polling : c.pollClosing = true → c.term = .sent ∧ c.loop.making = false
  sem : needsSem c = true → c.semInitialized = true
  shut : c.semClosing = true → shut c = true
  asked : c.state = .closing ∨ c.loop.leaving = true → c.closeHandler = true
  closed : c.state = .closed → (c.closeHandler = true ∧ c.loop = .idle) ∨ (c.closeHandler = false ∧ c.term = .ready)
  calls : c.handlerCalls = if c.finished then c.terminateHandler.toNat else 0

/-- No result of a connect or a poll sees `State_Terminating` when it is about to be stored. -/
def Timely (c : Conn) : Label → Prop
  | .advance _ => ∀ new k, c.loop = .switchLoad new k → new.result = true → c.state ≠ .terminating
  | _ => True

theorem Inv.initial {c : Conn} (h : Initial c) : Inv c := by
  obtain ⟨type, rfl⟩ := h
  exact ⟨rfl, rfl, rfl, rfl, nofun, nofun, nofun, nofun, fun _ => .inr ⟨rfl, rfl⟩, rfl⟩

section Duty

variable {c : Conn}

theorem one_of_four {a b c d e : Bool} : a.toNat + b.toNat + c.toNat + d.toNat = e.toNat ↔
      e = (a || b || c || d) ∧ (a && (b || c || d)) = false ∧ (b && (c || d)) = false ∧ (c && d) = false := by
  cases a <;> cases b <;> cases c <;> cases d <;> cases e <;> decide

theorem duty_iff : duty c = (c.state == .terminating).toNat ↔
    (c.state == .terminating) = (c.term == .switched || c.wakeup || (c.pollInitialized && c.pollClosing) ||
      c.loop.finishing) ∧
    (c.term == .switched && (c.wakeup || (c.pollInitialized && c.pollClosing) || c.loop.finishing)) = false ∧
    (c.wakeup && ((c.pollInitialized && c.pollClosing) || c.loop.finishing)) = false ∧
    ((c.pollInitialized && c.pollClosing) && c.loop.finishing) = false :=
  one_of_four

section
variable (h : Inv c)
include h

theorem Inv.of_wakeup (hw : c.wakeup = true) :
    c.state = .terminating ∧ c.term ≠ .switched ∧ (c.pollInitialized && c.pollClosing) = false ∧
      c.loop.finishing = false := by
  have := duty_iff.mp h.duty
  simp_all

theorem Inv.of_pollClosing (hp : (c.pollInitialized && c.pollClosing) = true) :
    c.state = .terminating ∧ c.wakeup = false ∧ c.loop.finishing = false := by
  have := duty_iff.mp h.duty
  simp_all

theorem Inv.of_finishing (hf : c.loop.finishing = true) :
    c.state = .terminating ∧ c.term ≠ .switched ∧ c.wakeup = false ∧
      (c.pollInitialized && c.pollClosing) = false := by
  have := duty_iff.mp h.duty
  simp_all

theorem Inv.of_switched (ht : c.term = .switched) :
    c.wakeup = false ∧ (c.pollInitialized && c.pollClosing) = false ∧ c.loop.finishing = false := by
  have := duty_iff.mp h.duty
  simp_all

theorem Inv.of_not_terminating (hne : c.state ≠ .terminating) :
    c.term ≠ .switched ∧ c.wakeup = false ∧ (c.pollInitialized && c.pollClosing) = false ∧
      c.loop.finishing = false := by
  have := (duty_iff.mp h.duty).1
  rw [beq_eq_false_iff_ne.mpr hne] at this
  simp_all

end
end Duty

section Begin

variable {c c' : Conn} {pc : LoopPc} {s : ConnectionState}

theorem Inv.fits (h : Inv c) (hloop : c.loop = pc) : pc.fits c.state = true := hloop ▸ h.loop

theorem ConnectionState.live_iff : s.live = true ↔ s.usable = true ∧ s ≠ .terminating := by
  simp [live]

theorem ConnectionState.usable_open (hu : s.usable = true) : s ≠ .closing ∧ s ≠ .closed := by
  constructor <;> rintro rfl <;> cases hu

theorem Inv.goto (h : Inv c) (hfrom : c.loop.finishing = false)
    (hfits : pc.fits c.state = true) (hfin : pc.finishing = false) (hmaking : pc.making = false)
    (hopening : pc.opening = true → c.semInitialized = true) (hopen : c.semClosing = false)
    (hleaving : pc.leaving = true → c.closeHandler = true)
    (hclosed : c.state = .closed → c.closeHandler = false) : Inv { c with loop := pc } where
  alive := h.alive
  loop := hfits
  term := h.term
  duty := by
    have := duty_iff.mp h.duty
    rw [hfrom] at this
    exact duty_iff.mpr (hfin.symm ▸ this)
  polling hp := ⟨(h.polling hp).1, hmaking⟩
  sem hn := by
    simp only [needsSem, Bool.or_eq_true] at hn
    rcases hn with hn | hn
    · exact h.sem (by simp only [needsSem, Bool.or_eq_true]; exact .inl hn)
    · exact hopening hn
  shut hclosing := absurd hclosing (by simp [hopen])
  asked hasked := hasked.elim (fun hst => h.asked (.inl hst)) hleaving
  closed hst := by
    have hno := hclosed hst
    exact .inr ⟨hno, ((h.closed hst).resolve_left (by simp [hno])).2⟩
  calls := h.calls

theorem Inv.semOpen (h : Inv c) (hne : c.state ≠ .closing ∧ (c.state = .closed → c.closeHandler = false)) :
    c.semClosing = false := by
  by_contra hclosing
  have := h.shut (by simpa using hclosing)
  unfold TcpConnection.shut at this
  split at this <;> simp_all

theorem Inv.semOpen_usable (h : Inv c) (hu : c.state.usable = true) : c.semClosing = false :=
  h.semOpen ⟨(usable_open hu).1, fun hst => absurd hst (usable_open hu).2⟩

theorem Inv.of_terminating (h : Inv c) (hstate : c.state = .terminating) :
    c.semInitialized = true ∧ c.semClosing = false ∧ c.handlerCalls = 0 := by
  refine ⟨h.sem (by simp [needsSem, hstate, usable]), h.semOpen ⟨by rw [hstate]; nofun, by rw [hstate]; nofun⟩, ?_⟩
  rw [h.calls, finished, hstate]
  simp

theorem Inv.terminating (hstate : c.state = .terminating) (alive : c.panicked = false)
    (loop : c.loop.fits .terminating = true) (term : c.term = .switched ∨ c.term = .sent)
    (duty : TcpConnection.duty c = 1) (polling : c.pollClosing = true → c.term = .sent ∧ c.loop.making = false)
    (facts : c.semInitialized = true ∧ c.semClosing = false ∧ c.handlerCalls = 0) : Inv c where
  alive := alive
  loop := hstate ▸ loop
  term := by rcases term with ht | ht <;> rw [ht, hstate] <;> rfl
  duty := by rw [duty, hstate]; rfl
  polling := polling
  sem _ := facts.1
  shut hcl := absurd hcl (by simp [facts.2.1])
  asked hasked := by
    rcases hasked with hst | hleaving
    · rw [hstate] at hst; cases hst
    · cases hl : c.loop with
      | switchLoad new k => cases new <;> cases k <;> simp_all [LoopPc.fits, onWay, LoopPc.leaving, result]
      | switchCas old new k => cases new <;> cases k <;> simp_all [LoopPc.fits, onWay, LoopPc.leaving, result]
      | _ => simp_all [LoopPc.leaving]
  closed hst := by rw [hstate] at hst; cases hst
  calls := by rw [facts.2.2, finished, hstate]; simp

section
variable (h : Inv c)
include h

theorem Inv.term_of_terminating (hstate : c.state = .terminating) : c.term = .switched ∨ c.term = .sent := by
  have := h.term
  rw [hstate] at this
  cases ht : c.term <;> simp_all [TermPc.fits, live]

theorem Inv.startTerminate (hidle : c.loop = .idle) (hs : begin c .startTerminate = some c') : Inv c' := by
  simp only [TcpConnection.begin] at hs
  split at hs
  case isFalse => cases hs
  rename_i hc
  simp only [Bool.and_eq_true] at hc
  obtain ⟨hstate, hterm, hpoll, hfin⟩ := h.of_wakeup hc.1.1
  have hsent : c.term = .sent := (h.term_of_terminating hstate).resolve_left hterm
  rw [if_neg (not_not_intro hstate)] at hs
  split at hs
  case isTrue hp =>
    cases hs
    refine .terminating hstate h.alive (hstate ▸ h.loop) (.inr hsent) ?_ ?_ (h.of_terminating hstate)
    · simp [TcpConnection.duty, hp, hfin, hsent]
    · rintro -
      exact ⟨hsent, by rw [hidle]; rfl⟩
  case isFalse hp =>
    cases hs
    refine .terminating hstate h.alive rfl (.inr hsent) ?_ ?_ (h.of_terminating hstate)
    · simp [TcpConnection.duty, hp, finishing, hsent]
    · exact fun hp => ⟨(h.polling hp).1, rfl⟩

theorem Inv.disconnectSocket (shutdownOk closeOk : Bool) : Inv (c.disconnectSocket shutdownOk closeOk) := by
  unfold Conn.disconnectSocket
  split
  · exact ⟨h.alive, h.loop, h.term, h.duty, h.polling, h.sem, h.shut, h.asked, h.closed, h.calls⟩
  · exact h

theorem Inv.finish (hstate : c.state = .terminating) (hsent : c.term = .sent)
    (hwakeup : c.wakeup = false) (shutdownOk closeOk : Bool) :
    Inv ({ c with pollInitialized := false, loop := .finishCas }.disconnectSocket shutdownOk closeOk) := by
  have hinv : Inv { c with pollInitialized := false, loop := .finishCas } := by
    refine .terminating hstate h.alive rfl (.inr hsent) ?_ ?_ (h.of_terminating hstate)
    · simp [TcpConnection.duty, hwakeup, finishing, hsent]
    · exact fun hp => ⟨(h.polling hp).1, rfl⟩
  exact hinv.disconnectSocket shutdownOk closeOk

theorem Inv.finishTerminate {shutdownOk closeOk : Bool}
    (hs : begin c (.finishTerminate shutdownOk closeOk) = some c') : Inv c' := by
  simp only [begin] at hs
  split at hs
  case isFalse => cases hs
  rename_i hc
  obtain ⟨hstate, hwakeup, -⟩ := h.of_pollClosing hc
  rw [if_neg (not_not_intro hstate)] at hs
  cases hs
  simp only [Bool.and_eq_true] at hc
  exact h.finish hstate (h.polling hc.2).1 hwakeup _ _

theorem Inv.not_finished (hu : c.state.usable = true) : c.finished = false := by
  have := h.term
  cases ht : c.term <;> simp_all [finished, TermPc.fits]
  rcases this with ((hst | hst) | hst) | hst <;> simp_all [usable]

section
variable (hfrom : c.loop.finishing = false) (hu : c.state.usable = true)
include hfrom hu

theorem Inv.return_usable : Inv { c with loop := .idle } := h.goto hfrom rfl rfl rfl nofun (h.semOpen_usable hu) nofun
    fun hst => absurd hst (usable_open hu).2

theorem Inv.result {new : ConnectionState} (hn : new.result = true) : Inv { c with loop := .switchLoad new .ret } := by
  refine h.goto hfrom (by simp [LoopPc.fits, onWay, hu, hn]) rfl rfl ?_ (h.semOpen_usable hu) ?_
    fun hst => absurd hst (ConnectionState.usable_open hu).2
  · cases new <;> simp_all [ConnectionState.result, LoopPc.opening]
  · cases new <;> simp_all [ConnectionState.result, LoopPc.leaving]

end

section
variable (hidle : c.loop = .idle)
include hidle

theorem Inv.poll {failed writable connected : Bool}
    (hs : begin c (.poll failed writable connected) = some c') : Inv c' := by
  have hfrom : c.loop.finishing = false := by rw [hidle]; rfl
  simp only [begin, Bool.and_eq_true, decide_eq_true_eq] at hs
  split at hs
  case isFalse => cases hs
  split at hs
  case isTrue hc => cases hs; exact h.result hfrom (by rw [hc.1]; rfl) rfl
  split at hs
  case isTrue hc => cases hs; exact h.result hfrom (by rw [hc.1]; rfl) (by cases connected <;> rfl)
  split at hs
  case isTrue hc => cases hs; exact h.result hfrom (by rw [hc.1]; rfl) rfl
  cases hs
  exact h

theorem Inv.asyncClose (hs : begin c .asyncClose = some c') : Inv c' := by
  simp only [begin] at hs
  split at hs <;> cases hs
  rename_i hc
  simp only [Bool.and_eq_true, Bool.or_eq_true, decide_eq_true_eq] at hc
  have hst : c.state = .opening ∨ c.state = .opened ∨ c.state = .terminated := or_assoc.mp hc.1
  have hne : c.state ≠ .closing ∧ c.state ≠ .closed ∧ c.state ≠ .terminating := by
    rcases hst with hst | hst | hst <;> rw [hst] <;> exact ⟨nofun, nofun, nofun⟩
  have hasked : Inv { c with closeHandler := true } := ⟨h.alive, h.loop, h.term, h.duty, h.polling, h.sem,
      fun hcl => absurd hcl (by simp [h.semOpen ⟨hne.1, fun hst => absurd hst hne.2.1⟩]),
      fun _ => rfl, fun hst => absurd hst hne.2.1, h.calls⟩
  refine hasked.goto (by rw [show Conn.loop _ = c.loop from rfl, hidle]; rfl) ?_ rfl rfl nofun
    (h.semOpen ⟨hne.1, fun hst => absurd hst hne.2.1⟩) (fun _ => rfl) (fun hst => absurd hst hne.2.1)
  rcases hst with hst | hst | hst <;> rw [show Conn.state _ = c.state from rfl, hst] <;> rfl

theorem Inv.semClosed (hs : begin c .closed = some c') : Inv c' := by
  simp only [TcpConnection.begin] at hs
  split at hs
  case isFalse => cases hs
  rename_i hc
  simp only [Bool.and_eq_true] at hc
  obtain ⟨hasked, hstate⟩ : c.closeHandler = true ∧ c.state = .closing := by
    have := h.shut hc.2
    simpa [TcpConnection.shut, hidle, hc.1] using this
  rw [if_neg (not_not_intro hstate)] at hs
  cases hs
  obtain ⟨hswitched, hwakeup, hpoll, -⟩ := h.of_not_terminating (by rw [hstate]; nofun)
  refine ⟨h.alive, by rw [hstate]; rfl, h.term, duty_iff.mpr ?_, ?_, ?_, ?_, fun _ => hasked, ?_, h.calls⟩
  · rw [hpoll, hwakeup, hstate, beq_eq_false_iff_ne.mpr hswitched]
    exact ⟨rfl, rfl, rfl, rfl⟩
  · exact fun hp => ⟨(h.polling hp).1, rfl⟩
  · simp [needsSem, hstate, usable, LoopPc.opening]
  · simp [TcpConnection.shut, hstate, hasked]
  · simp [hstate]

theorem Inv.begin {call : Call} (hs : begin c call = some c') : Inv c' := by
  have hfrom : c.loop.finishing = false := by rw [hidle]; rfl
  cases call with
  | startTerminate => exact h.startTerminate hidle hs
  | finishTerminate shutdownOk closeOk => exact h.finishTerminate hs
  | poll failed writable connected => exact h.poll hidle hs
  | asyncClose => exact h.asyncClose hidle hs
  | closed => exact h.semClosed hidle hs
  | open_ =>
    simp only [TcpConnection.begin] at hs
    split at hs <;> cases hs
    rename_i hc
    simp only [Bool.and_eq_true, decide_eq_true_eq, Bool.not_eq_true'] at hc
    exact h.goto hfrom (by rw [hc.1]; rfl) rfl rfl nofun (h.semOpen ⟨by rw [hc.1]; nofun, fun _ => hc.2⟩)
      nofun (fun _ => hc.2)
  | accept | connect =>
    simp only [TcpConnection.begin] at hs
    split at hs <;> cases hs
    rename_i hc
    simp only [Bool.and_eq_true, decide_eq_true_eq] at hc
    exact h.goto hfrom (by rw [hc.2]; rfl) rfl rfl nofun
      (h.semOpen ⟨by rw [hc.2]; nofun, by rw [hc.2]; nofun⟩) nofun (by rw [hc.2]; nofun)
  | attachTerminateHandler =>
    simp only [TcpConnection.begin] at hs
    split at hs <;> cases hs
    rename_i hc
    simp only [Bool.and_eq_true] at hc
    have hfin := h.not_finished hc.1
    refine ⟨h.alive, h.loop, h.term, h.duty, h.polling, h.sem, h.shut, h.asked, h.closed, ?_⟩
    have hnone : c.handlerCalls = 0 := h.calls.trans (if_neg (by simp [hfin]))
    exact hnone.trans (if_neg (by simpa [finished] using hfin)).symm

end
end
end Begin

section Advance

variable {c c' : Conn} {new : ConnectionState} {k : Cont} {s : ConnectionState}

theorem onWay_cases (h : onWay s new k = true) : (s = .closed ∧ new = .opening ∧ k = .openBody) ∨
    (s = .opened ∧ new = .connecting ∧ (k = .acceptBody ∨ k = .connectBody)) ∨
    ((s = .opening ∨ s = .opened ∨ s = .terminated) ∧ new = .closing ∧ k = .closeBody) ∨
    (s = .opening ∧ new = .opened ∧ k = .ret) ∨ (s.usable = true ∧ new.result = true ∧ k = .ret) ∨
    (s = .closing ∧ new = .closed ∧ k = .ret) := by
  cases k <;> simp_all [onWay, or_assoc]

theorem onWay_result (h : onWay s new k = true) (hs : s = new ∨ s = .terminating) :
    s.usable = true ∧ new.result = true ∧ k = .ret := by
  rcases onWay_cases h with ⟨rfl, rfl, -⟩ | ⟨rfl, rfl, -⟩ | ⟨hold, rfl, -⟩ | ⟨rfl, rfl, -⟩ | h | ⟨rfl, rfl, -⟩
  · simp at hs
  · simp at hs
  · rcases hold with rfl | rfl | rfl <;> simp at hs
  · simp at hs
  · exact h
  · simp at hs

theorem setFlags_eq (c : Conn) (new : ConnectionState) : ∃ est failed,
    c.setFlags new = { c with wasEstablished := est, wasFailed := failed } := by
  unfold setFlags
  split
  · exact ⟨_, _, rfl⟩
  · split <;> exact ⟨_, _, rfl⟩

theorem Inv.setFlags (h : Inv c) (new : ConnectionState) : Inv (c.setFlags new) := by
  obtain ⟨est, failed, heq⟩ := setFlags_eq c new
  rw [heq]
  exact ⟨h.alive, h.loop, h.term, h.duty, h.polling, h.sem, h.shut, h.asked, h.closed, h.calls⟩

theorem Inv.switchLoad (h : Inv c) (hloop : c.loop = .switchLoad new k)
    (htimely : new.result = true → c.state ≠ .terminating) (hne : c.state ≠ new) :
    Inv { c with loop := .switchCas c.state new k } := by
  have hway : onWay c.state new k = true := h.fits hloop
  have hduty := h.duty
  have hpolling := h.polling
  have hsem := h.sem
  have hshut := h.shut
  have hasked := h.asked
  have hclosed := h.closed
  unfold TcpConnection.duty at hduty
  rw [hloop] at hduty hpolling hasked hclosed
  simp only [needsSem, TcpConnection.shut, hloop] at hsem hshut
  refine ⟨h.alive, ?_, h.term, hduty, ?_, ?_, ?_, ?_, ?_, h.calls⟩
  · simp only [LoopPc.fits, hway, Bool.true_and]
    split
    · rename_i hr
      have hu : c.state.usable = true := by
        rcases onWay_cases hway with ⟨-, rfl, -⟩ | ⟨-, rfl, -⟩ | ⟨-, rfl, -⟩ | ⟨-, rfl, -⟩ | ⟨hu, -⟩ | ⟨-, rfl, -⟩
        all_goals first | exact hu | cases hr
      simp [live, hu, htimely hr]
    · simp
  · exact fun hp => ⟨(hpolling hp).1, rfl⟩
  · intro hn
    apply hsem
    cases new <;> simp_all [needsSem, LoopPc.opening]
  · intro hcl
    have := hshut hcl
    cases new <;> cases k <;> simp_all [TcpConnection.shut]
  · intro ha
    apply hasked
    cases new <;> simp_all [LoopPc.leaving]
  · intro hst
    exact .inr ((hclosed hst).resolve_left (by simp))

theorem not_ignored {old : ConnectionState} (hfits : (switchCas old new k).fits s = true) :
    ignored old new = false := by
  simp only [fits, Bool.and_eq_true] at hfits
  obtain ⟨hway, hold⟩ := hfits
  split at hold
  · cases old <;> first | rfl | cases hold
  · rename_i hr
    simp only [beq_iff_eq] at hold
    subst hold
    rcases onWay_cases hway with ⟨rfl, rfl, -⟩ | ⟨rfl, rfl, -⟩ | ⟨hold, rfl, -⟩ | ⟨rfl, rfl, -⟩ | ⟨-, hr', -⟩ |
      ⟨rfl, rfl, -⟩
    · rfl
    · rfl
    · rcases hold with rfl | rfl | rfl <;> rfl
    · rfl
    · exact absurd hr' hr
    · rfl

/-- `async_terminate` is where it can be after every switch that the loop makes. -/
theorem TermPc.fits_switch {t : TermPc} (hway : onWay s new k = true)
    (hne : s ≠ .terminating) (hfresh : s = .closed → t = .ready) (h : t.fits s = true) : t.fits new = true := by
  rcases onWay_cases hway with ⟨rfl, rfl, -⟩ | ⟨rfl, rfl, -⟩ | ⟨hold, rfl, -⟩ | ⟨rfl, rfl, -⟩ | ⟨hu, hr, -⟩ |
    ⟨rfl, rfl, -⟩
  · rw [hfresh rfl]; rfl
  · cases t <;> first | rfl | cases h
  · rcases hold with rfl | rfl | rfl <;> cases t <;> first | rfl | cases h
  · cases t <;> first | rfl | cases h
  · have hlive : new.live = true ∧ new ≠ .terminating ∧ new ≠ .terminated := by
      cases new <;> first | exact ⟨rfl, nofun, nofun⟩ | cases hr
    have hdead : s ≠ .terminated ∧ s ≠ .closing ∧ s ≠ .closed := by
      refine ⟨?_, ?_, ?_⟩ <;> rintro rfl <;> cases hu
    cases t <;> simp_all [TermPc.fits]
  · cases t <;> first | rfl | cases h

def Cont.place : Cont → LoopPc
  | .ret => .idle
  | k => .body k

theorem goOn_eq (c : Conn) (k : Cont) : c.goOn k = { c with loop := k.place } := by
  cases k <;> rfl

theorem Inv.switchCas (h : Inv c) (hloop : c.loop = .switchCas c.state new k) :
    Inv ({ c with state := new }.goOn k) := by
  have hfits := h.fits hloop
  simp only [LoopPc.fits, Bool.and_eq_true] at hfits
  obtain ⟨hway, hlive⟩ := hfits
  have hne : c.state ≠ .terminating ∧ new ≠ .terminating := by
    rcases onWay_cases hway with ⟨hst, rfl, -⟩ | ⟨hst, rfl, -⟩ | ⟨hst, rfl, -⟩ | ⟨hst, rfl, -⟩ | ⟨-, hr, -⟩ |
      ⟨hst, rfl, -⟩
    · simp [hst]
    · simp [hst]
    · rcases hst with hst | hst | hst <;> simp [hst]
    · simp [hst]
    · rw [if_pos hr] at hlive
      constructor <;> intro hst <;> simp_all [ConnectionState.live, ConnectionState.result]
    · simp [hst]
  obtain ⟨hswitched, hwakeup, hpoll, -⟩ := h.of_not_terminating hne.1
  have hfresh : c.state = .closed → c.term = .ready := fun hst =>
    ((h.closed hst).resolve_left (by simp [hloop])).2
  have hplace : k.place.finishing = false ∧ k.place.opening = false ∧ k.place.leaving = false := by
    cases k <;> exact ⟨rfl, rfl, rfl⟩
  rw [goOn_eq]
  refine ⟨h.alive, ?_, TermPc.fits_switch hway hne.1 hfresh h.term, duty_iff.mpr ?_, ?_, ?_, ?_, ?_, ?_, ?_⟩
  · rcases onWay_cases hway with ⟨-, rfl, rfl⟩ | ⟨-, rfl, rfl | rfl⟩ | ⟨-, rfl, rfl⟩ | ⟨-, rfl, rfl⟩ | ⟨-, -, rfl⟩ |
      ⟨-, rfl, rfl⟩
    all_goals rfl
  · rw [hpoll, hwakeup, beq_eq_false_iff_ne.mpr hne.2, beq_eq_false_iff_ne.mpr hswitched, hplace.1]
    exact ⟨rfl, rfl, rfl, rfl⟩
  · -- a handle that is being closed is one of a termination that has begun
    intro hp
    obtain ⟨hsent, -⟩ := h.polling hp
    refine ⟨hsent, ?_⟩
    have hterm := h.term
    rw [hsent] at hterm
    cases k <;> first | rfl | skip
    all_goals
      simp only [onWay, Bool.and_eq_true, beq_iff_eq] at hway
      rw [hway.1] at hterm
      cases hterm
  · intro hn
    apply h.sem
    simp only [needsSem, hplace.2.1, Bool.or_false, hloop] at hn ⊢
    rcases onWay_cases hway with ⟨-, rfl, -⟩ | ⟨hst, -, -⟩ | ⟨-, rfl, -⟩ | ⟨-, rfl, -⟩ | ⟨hu, -, -⟩ | ⟨-, rfl, -⟩
    · cases hn
    · simp [hst]
    · cases hn
    · simp [LoopPc.opening]
    · simp [hu]
    · cases hn
  · intro hcl
    have := h.shut hcl
    simp only [TcpConnection.shut, hloop] at this
    cases new <;> cases k <;> simp_all [TcpConnection.shut, Cont.place]
  · intro ha
    have hnew : new = .closing := by simpa [hplace.2.2] using ha
    exact h.asked (.inr (by rw [hloop, hnew]; rfl))
  · rintro (rfl : new = .closed)
    rcases onWay_cases hway with ⟨-, hn, -⟩ | ⟨-, hn, -⟩ | ⟨-, hn, -⟩ | ⟨-, hn, -⟩ | ⟨-, hn, -⟩ | ⟨hst, -, rfl⟩
    case inr.inr.inr.inr.inr => exact .inl ⟨h.asked (.inl hst), rfl⟩
    all_goals cases hn
  · have hfin : finished { c with state := new, loop := k.place } = c.finished := by
      simp only [finished, bne_iff_ne.mpr hne.1, bne_iff_ne.mpr hne.2]
    rw [hfin]
    exact h.calls

variable {pc : LoopPc}

theorem LoopPc.making_iff : pc.making = true ↔ pc = .body .acceptBody ∨ pc = .body .connectBody := by
  unfold making
  split <;> simp_all

theorem Inv.making_open (h : Inv c) (hmaking : c.loop.making = true) : c.pollClosing = false := by
  by_contra hp
  rw [(h.polling (by simpa using hp)).2] at hmaking
  cases hmaking

/-- `accept` and `connect` set up the socket and the poll handle, then go on or return. -/
theorem Inv.making (h : Inv c) (hmaking : c.loop.making = true)
    (hpc : pc = .idle ∨ pc = .switchLoad .established .ret) (socketValid pollInitialized pollStarted : Bool) :
    Inv { c with
      socketValid := socketValid
      pollInitialized := pollInitialized
      pollStarted := pollStarted
      loop := pc } := by
  obtain ⟨hu, hfrom⟩ : c.state.usable = true ∧ c.loop.finishing = false := by
    rcases making_iff.mp hmaking with hloop | hloop <;> exact ⟨h.fits hloop, by rw [hloop]; rfl⟩
  -- the handle is not being closed, so it does not matter whether it is there
  have hclosing := h.making_open hmaking
  have hduty := h.duty
  simp only [TcpConnection.duty, hclosing, Bool.and_false] at hduty
  have hinv : Inv { c with
      socketValid := socketValid
      pollInitialized := pollInitialized
      pollStarted } := by
    refine ⟨h.alive, h.loop, h.term, ?_, h.polling, h.sem, h.shut, h.asked, h.closed, h.calls⟩
    simp only [TcpConnection.duty, hclosing, Bool.and_false]
    exact hduty
  rcases hpc with rfl | rfl
  · exact hinv.return_usable hfrom hu
  · exact hinv.result hfrom hu rfl

theorem startPolling_eq (c : Conn) (initOk startOk : Bool) : ∃ pollInitialized pollStarted,
    c.startPolling initOk startOk =
      { c with pollInitialized, pollStarted } := by
  unfold startPolling
  split <;> exact ⟨_, _, rfl⟩

theorem Inv.openBody (h : Inv c) (hloop : c.loop = .body .openBody) :
    Inv { c with semInitialized := true, loop := .switchLoad .opened .ret } ∧ Inv { c with loop := .idle } := by
  have hstate : c.state = .opening := by simpa [LoopPc.fits] using h.fits hloop
  have hopen := h.semOpen ⟨by rw [hstate]; nofun, by rw [hstate]; nofun⟩
  have hinit : Inv { c with semInitialized := true } :=
    ⟨h.alive, h.loop, h.term, h.duty, h.polling, fun _ => rfl, fun hcl => absurd hcl (by simp [hopen]),
      h.asked, h.closed, h.calls⟩
  have hfrom : c.loop.finishing = false := by rw [hloop]; rfl
  have hclosed : c.state = .closed → c.closeHandler = false := by rw [hstate]; nofun
  exact ⟨hinit.goto hfrom (by rw [show state _ = c.state from rfl, hstate]; rfl) rfl rfl (fun _ => rfl)
    hopen nofun hclosed, h.goto hfrom rfl rfl rfl nofun hopen nofun hclosed⟩

theorem Inv.closeBody (h : Inv c) (hloop : c.loop = .body .closeBody) :
    (c.semInitialized = true → Inv { c with semClosing := true, loop := .idle }) ∧
      (c.semInitialized = false → Inv { c with loop := .switchLoad .closed .ret }) := by
  have hstate : c.state = .closing := by simpa [LoopPc.fits] using h.fits hloop
  have hopen : c.semClosing = false := by
    by_contra hcl
    have := h.shut (by simpa using hcl)
    simp [TcpConnection.shut, hloop] at this
  have hasked := h.asked (.inl hstate)
  have hfrom : c.loop.finishing = false := by rw [hloop]; rfl
  have hclosed : c.state = .closed → c.closeHandler = false := by rw [hstate]; nofun
  constructor
  · intro hsem
    have hidle : Inv { c with loop := .idle } := h.goto hfrom rfl rfl rfl nofun hopen nofun hclosed
    refine ⟨h.alive, rfl, h.term, hidle.duty, hidle.polling, hidle.sem, ?_, hidle.asked, hidle.closed, h.calls⟩
    simp [TcpConnection.shut, hstate, hasked, hsem]
  · intro hsem
    exact h.goto hfrom (by rw [hstate]; rfl) rfl rfl nofun hopen nofun hclosed

/-- `finish_terminate_cb_` switches to `State_Terminated` and calls the handler. -/
theorem Inv.finishCas (h : Inv c) (hloop : c.loop = .finishCas) : Inv { c with
      state := .terminated
      loop := .idle
      handlerCalls := c.handlerCalls + c.terminateHandler.toNat } := by
  obtain ⟨hstate, hswitched, hwakeup, hpoll⟩ := h.of_finishing (by rw [hloop]; rfl)
  have hsent : c.term = .sent := (h.term_of_terminating hstate).resolve_left hswitched
  obtain ⟨hsem, hopen, hcalls⟩ := h.of_terminating hstate
  refine ⟨h.alive, rfl, by rw [hsent]; rfl, duty_iff.mpr ?_, ?_, fun _ => hsem,
    fun hcl => absurd hcl (by simp [hopen]), nofun, nofun, ?_⟩
  · rw [hpoll, hwakeup, hsent]
    exact ⟨rfl, rfl, rfl, rfl⟩
  · exact fun hp => ⟨hsent, rfl⟩
  · simp [hcalls, finished, hsent]

theorem maybeSwitch_cases (c : Conn) (expected desired : ConnectionState) (h : ignored expected desired = false) :
    c.state = expected ∧ c.maybeSwitch expected desired = (true, { c.setFlags desired with state := desired }) ∨
    c.state ≠ expected ∧ c.maybeSwitch expected desired = (false, c.setFlags desired) := by
  obtain ⟨est, failed, heq⟩ := setFlags_eq c desired
  unfold maybeSwitch
  rw [heq, h]
  by_cases hst : c.state = expected
  · exact .inl ⟨hst, by simp [hst]⟩
  · exact .inr ⟨hst, by simp [hst]⟩

theorem setFlags_state (c : Conn) (new : ConnectionState) : (c.setFlags new).state = c.state := by
  obtain ⟨est, failed, heq⟩ := setFlags_eq c new
  rw [heq]

theorem setFlags_loop (c : Conn) (new : ConnectionState) : (c.setFlags new).loop = c.loop := by
  obtain ⟨est, failed, heq⟩ := setFlags_eq c new
  rw [heq]

theorem Inv.advance {e : Choice} (h : Inv c) (htimely : Timely c (.advance e)) (hs : advance c e = some c') :
    Inv c' := by
  unfold TcpConnection.advance at hs
  split at hs
  case h_1 => cases hs
  case h_2 new k hloop =>
    cases hs
    split
    case isFalse hne => exact h.switchLoad hloop (htimely new k hloop) hne
    case isTrue heq =>
      -- only a result can find its own state; the method returns
      obtain ⟨hu, -, rfl⟩ := onWay_result (h.fits hloop) (.inl heq)
      exact h.return_usable (by rw [hloop]; rfl) hu
  case h_3 old new k hloop =>
    have hfits := h.fits hloop
    have hflags := h.setFlags new
    rcases maybeSwitch_cases c old new (not_ignored hfits) with ⟨hst, heq⟩ | ⟨hst, heq⟩
    · rw [heq] at hs
      cases hs
      exact hflags.switchCas (by rw [setFlags_loop, setFlags_state, hloop, hst])
    · rw [heq] at hs
      cases hs
      -- only a result can be overtaken
      simp only [LoopPc.fits, Bool.and_eq_true] at hfits
      split at hfits
      case isFalse => exact absurd (beq_iff_eq.mp hfits.2).symm hst
      case isTrue hr =>
        have hu : c.state.usable = true ∧ k = .ret := by
          rcases onWay_cases hfits.1 with ⟨-, rfl, -⟩ | ⟨-, rfl, -⟩ | ⟨-, rfl, -⟩ | ⟨-, rfl, -⟩ | ⟨hu, -, hk⟩ |
            ⟨-, rfl, -⟩
          all_goals first | exact ⟨hu, hk⟩ | cases hr
        rw [hu.2]
        exact hflags.result (by rw [setFlags_loop, hloop]; rfl) (by rw [setFlags_state]; exact hu.1) hr
  case h_4 hloop =>
    split at hs <;> cases hs
    · exact (h.openBody hloop).1
    · exact (h.openBody hloop).2
  case h_5 hloop | h_6 hloop =>
    have hmaking : c.loop.making = true := by rw [hloop]; rfl
    obtain ⟨_, _, heq⟩ := startPolling_eq { c with socketValid := e.socketOk } e.initOk e.startOk
    simp only [heq] at hs
    split at hs
    · split at hs <;> cases hs
      · exact h.making hmaking (.inr rfl) _ _ _
      · exact h.making hmaking (.inl rfl) _ _ _
    · cases hs
      exact h.making hmaking (.inl rfl) _ _ _
  case h_7 hloop =>
    split at hs <;> cases hs
    · exact (h.closeBody hloop).1 ‹_›
    · exact (h.closeBody hloop).2 (by simpa using ‹¬ c.semInitialized = true›)
  case h_8 => cases hs
  case h_9 hloop =>
    obtain ⟨hstate, hswitched, hwakeup, -⟩ := h.of_finishing (by rw [hloop]; rfl)
    rw [if_neg (not_not_intro hstate)] at hs
    cases hs
    exact h.finish hstate ((h.term_of_terminating hstate).resolve_left hswitched) hwakeup _ _
  case h_10 hloop =>
    obtain ⟨hstate, -⟩ := h.of_finishing (by rw [hloop]; rfl)
    rcases maybeSwitch_cases c .terminating .terminated rfl with ⟨-, heq⟩ | ⟨hne, -⟩
    · rw [heq] at hs
      cases hs
      exact h.finishCas hloop
    · exact absurd hstate hne

end Advance

section Terminate

variable {c c' : Conn}

theorem Inv.setTerm {t : TermPc} (h : Inv c) (hst : c.state ≠ .closed) (hc : c.term ≠ .sent)
    (hne : c.state ≠ .terminating) (hfits : t.fits c.state = true) (ht : t ≠ .switched) (ht' : t ≠ .sent) :
    Inv { c with term := t } := by
  obtain ⟨-, hwakeup, hpoll, hfin⟩ := h.of_not_terminating hne
  refine ⟨h.alive, h.loop, hfits, duty_iff.mpr ?_, ?_, h.sem, h.shut, h.asked, fun hcl => absurd hcl hst, ?_⟩
  · rw [hwakeup, hpoll, hfin, beq_eq_false_iff_ne.mpr hne, beq_eq_false_iff_ne.mpr ht]
    exact ⟨rfl, rfl, rfl, rfl⟩
  · exact fun hp => absurd (h.polling hp).1 hc
  · have hnone : c.handlerCalls = 0 := h.calls.trans (if_neg (by simp [finished, hc]))
    exact hnone.trans (if_neg (by simp [finished, ht'])).symm

variable {s : ConnectionState}

theorem onWay_live {new : ConnectionState} {k : Cont} (hlive : s.live = true) (hway : onWay s new k = true) :
    new.result = true ∧ k = .ret := by
  rcases onWay_cases hway with ⟨rfl, -⟩ | ⟨rfl, -⟩ | ⟨hst, -⟩ | ⟨rfl, -⟩ | ⟨-, hr, hk⟩ | ⟨rfl, -⟩
  case inr.inr.inr.inr.inl => exact ⟨hr, hk⟩
  case inr.inr.inl => rcases hst with rfl | rfl | rfl <;> cases hlive
  all_goals cases hlive

theorem LoopPc.fits_usable {t : ConnectionState} {pc : LoopPc} (hlive : s.live = true)
    (ht : t.usable = true) (h : pc.fits s = true) : pc.fits t = true := by
  have hne : s ≠ .terminating := by
    rintro rfl
    cases hlive
  cases pc with
  | idle => rfl
  | finish | finishCas => exact absurd (beq_iff_eq.mp h) hne
  | switchLoad new k =>
    obtain ⟨hr, rfl⟩ := onWay_live hlive h
    simp [fits, onWay, hr, ht]
  | switchCas old new k =>
    simp only [fits, Bool.and_eq_true] at h ⊢
    obtain ⟨hr, rfl⟩ := onWay_live hlive h.1
    rw [if_pos hr] at h ⊢
    exact ⟨by simp [onWay, hr, ht], h.2⟩
  | body k =>
    cases k <;> first | exact ht | (cases s <;> first | (cases h; done) | cases hlive)

theorem Inv.switched (h : Inv c) (hlive : c.state.live = true) (hterm : c.term ≠ .sent) :
    Inv { c with state := .terminating, term := .switched } := by
  have hu := live_iff.mp hlive
  obtain ⟨-, hwakeup, hpoll, hfin⟩ := h.of_not_terminating hu.2
  have hclosing : c.pollClosing = false := by
    by_contra hp
    exact hterm (h.polling (by simpa using hp)).1
  refine .terminating rfl h.alive ?_ (.inl rfl) ?_ ?_ ⟨?_, ?_, ?_⟩
  · exact fits_usable hlive rfl h.loop
  · simp [TcpConnection.duty, hwakeup, hclosing, hfin]
  · simp [hclosing]
  · exact h.sem (by simp [needsSem, hu.1])
  · exact h.semOpen_usable hu.1
  · exact h.calls.trans (if_neg (by simp [finished, hterm]))

theorem Inv.terminate {failure : Bool} (h : Inv c) (hs : terminate c failure = some c') : Inv c' := by
  have hterm := h.term
  have hload : c.state.usable = true → c.state ≠ .terminating → c.term ≠ .sent →
      Inv { c with term := .loaded c.state } := by
    intro hu hne hsent
    exact h.setTerm (usable_open hu).2 hsent hne (by simp [TermPc.fits, live, hu, hne]) nofun nofun
  unfold TcpConnection.terminate at hs
  split at hs
  case h_1 ht =>
    split at hs <;> cases hs
    rename_i hc
    simp only [Bool.and_eq_true, decide_eq_true_eq, ne_eq] at hc
    exact hload hc.1 hc.2 (by rw [ht]; nofun)
  case h_2 ht =>
    rw [ht] at hterm
    have hu := live_iff.mp hterm
    rw [if_pos (by simpa using hu)] at hs
    cases hs
    exact hload hu.1 hu.2 (by rw [ht]; nofun)
  case h_3 old ht =>
    rw [ht] at hterm
    simp only [TermPc.fits, Bool.and_eq_true] at hterm
    have hold : ignored old .terminating = false := by
      cases old <;> first | rfl | cases hterm.2
    rcases maybeSwitch_cases c old .terminating hold with ⟨-, heq⟩ | ⟨-, heq⟩
    · rw [heq] at hs
      cases hs
      exact h.switched hterm.1 (by rw [ht]; nofun)
    · rw [heq] at hs
      cases hs
      have hu := live_iff.mp hterm.1
      exact h.setTerm (usable_open hu.1).2 (by rw [ht]; nofun) hu.2 hterm.1 nofun nofun
  case h_4 ht =>
    cases hs
    rw [ht] at hterm
    have hstate : c.state = .terminating := by simpa [TermPc.fits] using hterm
    obtain ⟨-, hpoll, hfin⟩ := h.of_switched ht
    refine .terminating hstate h.alive (hstate ▸ h.loop) (.inr rfl) ?_ ?_ (h.of_terminating hstate)
    · simp only [TcpConnection.duty, hpoll, hfin]
      rfl
    · exact fun hp => ⟨rfl, (h.polling hp).2⟩
  case h_5 => cases hs

theorem Inv.broken (h : Inv c) (hlive : c.state.live = true) : Inv { c with state := .broken } := by
  have hu := live_iff.mp hlive
  obtain ⟨hswitched, hwakeup, hpoll, hfin⟩ := h.of_not_terminating hu.2
  have hopen := h.semOpen_usable hu.1
  have hsent : c.term ≠ .sent := by
    intro hsent
    have := h.term
    rw [hsent] at this
    cases hst : c.state <;> rw [hst] at this hlive <;> first | (cases this; done) | cases hlive
  refine ⟨h.alive, fits_usable hlive rfl h.loop, ?_, duty_iff.mpr ?_, h.polling,
    fun _ => h.sem (by simp [needsSem, hu.1]), fun hcl => absurd hcl (by simp [hopen]), ?_, nofun, ?_⟩
  · have := h.term
    cases ht : c.term <;> simp_all [TermPc.fits, live, usable]
  · rw [hwakeup, hpoll, hfin, beq_eq_false_iff_ne.mpr hswitched]
    exact ⟨rfl, rfl, rfl, rfl⟩
  · exact fun ha => h.asked (.inr (ha.resolve_left nofun))
  · exact (h.calls.trans (if_neg (by simp [finished, hsent]))).trans (if_neg (by simp [finished, hsent])).symm

theorem Inv.ioFailed (h : Inv c) : Inv (c.maybeSwitch .established .broken).2 := by
  have hflags := h.setFlags .broken
  rcases maybeSwitch_cases c .established .broken rfl with ⟨hst, heq⟩ | ⟨-, heq⟩
  · rw [heq]
    exact hflags.broken (by rw [setFlags_state, hst]; rfl)
  · rw [heq]
    exact hflags

end Terminate

/-- A step keeps the invariant, unless a result sees that the connection is being terminated. -/
theorem Inv.step {c c' : Conn} {l : Label} (h : Inv c) (htimely : Timely c l) (hs : Step c l c') : Inv c' := by
  obtain ⟨-, hs⟩ := hs
  cases l with
  | begin call =>
    simp only [next] at hs
    split at hs
    · exact h.begin ‹_› hs
    · cases hs
  | advance e => exact h.advance htimely hs
  | terminate failure => exact h.terminate hs
  | ioFailed =>
    cases hs
    exact h.ioFailed

end Roc.Netio.TcpConnection
