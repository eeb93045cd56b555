import RocToolkit.Lib.Loop

/-!
# RocToolkit.Lib.Fair

Endless runs of a system given by a step relation, and what has to happen in them. A run may pause
at any time; fairness says that it does not pause, or do other things, forever while an action of a
given kind could be taken. `eventually` is the rule for "sooner or later": a measure that no step
increases, and in every state a kind of action that is possible, stays the one to wait for, and
decreases the measure when it is taken.
-/

variable {σ α κ : Type}

structure Execution (init : σ → Prop) (step : σ → α → σ → Prop) where
  state : Nat → σ
  /-- what happens at each time; `none` is a pause -/
  action : Nat → Option α
  start : init (state 0)
  next : ∀ n, match action n with
    | none => state (n + 1) = state n
    | some a => step (state n) a (state (n + 1))

namespace Execution

variable {init : σ → Prop} {step : σ → α → σ → Prop} (e : Execution init step)

theorem state_of_pause {n : Nat} (h : e.action n = none) : e.state (n + 1) = e.state n := by
  have := e.next n
  rwa [h] at this

theorem step_of_action {n : Nat} {a : α} (h : e.action n = some a) : step (e.state n) a (e.state (n + 1)) := by
  have := e.next n
  rwa [h] at this

section
variable {I : σ → Prop} {allowed : σ → α → Prop} (hinit : ∀ s, init s → I s)
  (hstep : ∀ s a s', I s → allowed s a → step s a s' → I s')
include hinit hstep

theorem invariant_until (n : Nat)
    (hallowed : ∀ m, m < n → ∀ a, e.action m = some a → allowed (e.state m) a) : I (e.state n) := by
  induction n with
  | zero => exact hinit _ e.start
  | succ n ih =>
    have hn := ih fun m hm => hallowed m (Nat.lt_succ_of_lt hm)
    cases ha : e.action n with
    | none => rw [e.state_of_pause ha]; exact hn
    | some a => exact hstep _ a _ hn (hallowed n (Nat.lt_succ_self n) a ha) (e.step_of_action ha)

theorem invariant (hallowed : ∀ n a, e.action n = some a → allowed (e.state n) a) (n : Nat) : I (e.state n) :=
  e.invariant_until hinit hstep n fun m _ => hallowed m

end

def Fair (fair : κ → α → Prop) : Prop := ∀ k n, ∃ m, n ≤ m ∧
    ((¬ ∃ a s', fair k a ∧ step (e.state m) a s') ∨ ∃ a, e.action m = some a ∧ fair k a)

section
variable {e} {allowed : σ → α → Prop} {fair : κ → α → Prop} {I Q : σ → Prop} {μ : σ → Nat} {helpful : σ → κ}

/-- What the rule for "sooner or later" asks of every state of `I` outside `Q`, in runs that make allowed
steps only. What has to be possible need not be allowed: then a fair run of allowed steps does not get
there. -/
structure Progress (step : σ → α → σ → Prop) (allowed : σ → α → Prop) (fair : κ → α → Prop)
    (I Q : σ → Prop) (μ : σ → Nat) (helpful : σ → κ) : Prop where
  possible : ∀ s, I s → ¬ Q s → ∃ a s', fair (helpful s) a ∧ step s a s'
  moves : ∀ s a s', I s → ¬ Q s → allowed s a → step s a s' → Q s' ∨
    (I s' ∧ (μ s' < μ s ∨ (μ s' = μ s ∧ helpful s' = helpful s ∧ ¬ fair (helpful s) a)))

section
variable (h : Progress step allowed fair I Q μ helpful)
include h

/-- Until something gets better, the run stays in `I` and waits for the same kind of action. -/
theorem Progress.stays (hallowed : ∀ n a, e.action n = some a → allowed (e.state n) a) {n : Nat}
    (hn : I (e.state n)) (hQ : ¬ ∃ m, n ≤ m ∧ Q (e.state m))
    (hμ : ¬ ∃ m, n ≤ m ∧ I (e.state m) ∧ μ (e.state m) < μ (e.state n)) (m : Nat) :
    I (e.state (n + m)) ∧ μ (e.state (n + m)) = μ (e.state n) ∧
      helpful (e.state (n + m)) = helpful (e.state n) := by
  induction m with
  | zero => exact ⟨hn, rfl, rfl⟩
  | succ m ih =>
    obtain ⟨hI, hm, hk⟩ := ih
    rw [← Nat.add_assoc]
    cases ha : e.action (n + m) with
    | none =>
      rw [e.state_of_pause ha]
      exact ⟨hI, hm, hk⟩
    | some a =>
      have hnQ : ¬ Q (e.state (n + m)) := fun hq => hQ ⟨n + m, by omega, hq⟩
      rcases h.moves _ a _ hI hnQ (hallowed _ a ha) (e.step_of_action ha) with
        hq | ⟨hI', hlt | ⟨heq, hk', -⟩⟩
      · exact absurd ⟨n + m + 1, by omega, hq⟩ hQ
      · exact absurd ⟨n + m + 1, by omega, hI', hm ▸ hlt⟩ hμ
      · exact ⟨hI', heq.trans hm, hk'.trans hk⟩

section
variable {n : Nat} (hfair : e.Fair fair)
  (hallowed : ∀ n a, e.action n = some a → allowed (e.state n) a) (hn : I (e.state n))
include hfair hallowed hn

theorem Progress.once : (∃ m, n ≤ m ∧ Q (e.state m)) ∨ ∃ m, n ≤ m ∧ I (e.state m) ∧ μ (e.state m) < μ (e.state n) := by
  by_contra hcon
  obtain ⟨hQ, hμ⟩ := not_or.mp hcon
  have hstays := h.stays hallowed hn hQ hμ
  obtain ⟨m, hm, hdone⟩ := hfair (helpful (e.state n)) n
  obtain ⟨d, rfl⟩ := Nat.exists_eq_add_of_le hm
  obtain ⟨hI, hμ', hk⟩ := hstays d
  have hnQ : ¬ Q (e.state (n + d)) := fun hq => hQ ⟨n + d, hm, hq⟩
  rcases hdone with hnone | ⟨a, ha, hfa⟩
  · exact hnone (hk ▸ h.possible _ hI hnQ)
  · rcases h.moves _ a _ hI hnQ (hallowed _ a ha) (e.step_of_action ha) with
      hq | ⟨hI', hlt | ⟨-, -, hno⟩⟩
    · exact hQ ⟨n + d + 1, by omega, hq⟩
    · exact hμ ⟨n + d + 1, by omega, hI', hμ' ▸ hlt⟩
    · exact hno (hk ▸ hfa)

theorem Progress.eventually : ∃ m, n ≤ m ∧ Q (e.state m) := by
  induction hμ : μ (e.state n) using Nat.strongRecOn generalizing n with
  | _ d ih =>
    rcases h.once hfair hallowed hn with hQ | ⟨m, hm, hI, hlt⟩
    · exact hQ
    · obtain ⟨m', hm', hq⟩ := ih _ (hμ ▸ hlt) hI rfl
      exact ⟨m', Nat.le_trans hm hm', hq⟩

end
end
end

end Execution
