import Mathlib.Data.List.Forall2

/-!
# RocToolkit.Lib.Loop

Loops whose body may fail, run with fuel. `repeatUntil` is a `for (;;)` whose body either asks for
another round or leaves; `collect` is a `while ((s = next(s)) != END)` that keeps what it stopped
at. Both return the error `out` when the fuel ends, and the rules below show when it does not: an
invariant and a measure that every further round decreases. `Yields` is about code that does not fail,
`Reaches` about systems that go on from call to call.
-/

namespace Loop

variable {ε σ : Type}

inductive Round (σ : Type) where
  | again (s : σ)
  | leave (s : σ)
deriving DecidableEq, Repr

/-- `for (;;) body`. -/
def repeatUntil (body : σ → Except ε (Round σ)) (out : ε) : Nat → σ → Except ε σ
  | 0, _ => .error out
  | fuel + 1, s =>
    match body s with
    | .error e => .error e
    | .ok (.leave s') => .ok s'
    | .ok (.again s') => repeatUntil body out fuel s'

/-- `while (!done(s = next(s)))`: the states it stopped at, in order, and the one that ended it. -/
def collect (next : σ → Except ε σ) (done : σ → Bool) (out : ε) : Nat → σ → Except ε (List σ × σ)
  | 0, _ => .error out
  | fuel + 1, s =>
    match next s with
    | .error e => .error e
    | .ok s' =>
      if done s' then .ok ([], s')
      else
        match collect next done out fuel s' with
        | .error e => .error e
        | .ok (l, last) => .ok (s' :: l, last)

def forEach {α : Type} (body : σ → α → Bool × σ) : List α → σ → Bool × σ
  | [], s => (true, s)
  | a :: rest, s =>
    match body s a with
    | (false, s') => (false, s')
    | (true, s') => forEach body rest s'

variable {body : σ → Except ε (Round σ)} {out : ε} {I Q : σ → Prop} {α β : Type}
  {next : σ → Except ε σ} {done : σ → Bool} {l : List α}

/-- Total correctness of `repeatUntil`: every round from a state of the invariant either leaves in
a state of `Q`, or keeps the invariant and decreases `μ`. -/
theorem repeatUntil_total {μ : σ → Nat} (h : ∀ s, I s → (∃ s', body s = .ok (.leave s') ∧ Q s') ∨
      (∃ s', body s = .ok (.again s') ∧ I s' ∧ μ s' < μ s)) :
    ∀ (fuel : Nat) (s : σ), I s → μ s < fuel → ∃ s', repeatUntil body out fuel s = .ok s' ∧ Q s' := by
  intro fuel
  induction fuel with
  | zero => intro s _ hμ; omega
  | succ fuel ih =>
    intro s hs hμ
    rcases h s hs with ⟨s', hb, hq⟩ | ⟨s', hb, hi, hlt⟩
    · exact ⟨s', by simp [repeatUntil, hb], hq⟩
    · obtain ⟨s'', hr, hq⟩ := ih s' hi (by omega)
      exact ⟨s'', by simp [repeatUntil, hb, hr], hq⟩

/-- Partial correctness of `repeatUntil`: every round from a state of the invariant keeps it or leaves
in a state of `Q`. -/
theorem repeatUntil_keeps (hagain : ∀ s s', I s → body s = .ok (.again s') → I s')
    (hleave : ∀ s s', I s → body s = .ok (.leave s') → Q s') :
    ∀ {fuel : Nat} {s s' : σ}, I s → repeatUntil body out fuel s = .ok s' → Q s' := by
  intro fuel
  induction fuel with
  | zero => intro s s' _ h; cases h
  | succ fuel ih =>
    intro s s' hs h
    unfold repeatUntil at h
    cases hb : body s with
    | error e => rw [hb] at h; cases h
    | ok r =>
      rw [hb] at h
      cases r with
      | leave s1 => cases h; exact hleave s s' hs hb
      | again s1 => exact ih (hagain s s1 hs hb) h

variable {body : σ → α → Bool × σ} {f : α → Except ε β}

/-- What `forEach` has established when it gets to the end, by what one round adds. -/
theorem forEach_keeps {I : List α → σ → Prop}
    (hstep : ∀ pre a s s', I pre s → body s a = (true, s') → I (pre ++ [a]) s') :
    ∀ (l pre : List α) {s s' : σ}, I pre s → forEach body l s = (true, s') → I (pre ++ l) s' := by
  intro l
  induction l with
  | nil =>
    intro pre s s' hs h
    cases h
    rwa [List.append_nil]
  | cons a l ih =>
    intro pre s s' hs h
    unfold forEach at h
    cases hb : body s a with
    | mk done s1 =>
      rw [hb] at h
      cases done with
      | false => cases h
      | true =>
        have := ih (pre ++ [a]) (hstep pre a s s1 hs hb) h
        rwa [List.append_assoc] at this

theorem forEach_frame (hstep : ∀ a s, I s → I (body s a).2) : ∀ (l : List α) {s : σ}, I s → I (forEach body l s).2 := by
  intro l
  induction l with
  | nil => intro s hs; exact hs
  | cons a l ih =>
    intro s hs
    have h1 := hstep a s hs
    unfold forEach
    cases hb : body s a with
    | mk done s1 =>
      rw [hb] at h1
      cases done with
      | false => exact h1
      | true => exact ih h1

/-- `forEach` gets to the end if every round succeeds and keeps what the next one needs. -/
theorem forEach_total (hstep : ∀ a s, I s → ∃ s', body s a = (true, s') ∧ I s') :
    ∀ (l : List α) {s : σ}, I s → ∃ s', forEach body l s = (true, s') ∧ I s' := by
  intro l
  induction l with
  | nil => intro s hs; exact ⟨s, rfl, hs⟩
  | cons a l ih =>
    intro s hs
    obtain ⟨s1, hb, h1⟩ := hstep a s hs
    obtain ⟨s', hl, h'⟩ := ih h1
    refine ⟨s', ?_, h'⟩
    unfold forEach
    rw [hb]
    exact hl

/-- Total correctness of `collect`: every state it stops at satisfies `P`, and so does the last. -/
theorem collect_total {P : σ → Prop} {μ : σ → Nat} (h : ∀ s, I s → ∃ s', next s = .ok s' ∧ P s' ∧
      (done s' = true ∨ (I s' ∧ μ s' < μ s))) (out : ε) :
    ∀ (fuel : Nat) (s : σ), I s → μ s < fuel →
      ∃ l last, collect next done out fuel s = .ok (l, last) ∧ done last = true ∧ P last ∧
        ∀ x ∈ l, P x ∧ done x = false := by
  intro fuel
  induction fuel with
  | zero => intro s _ hμ; omega
  | succ fuel ih =>
    intro s hs hμ
    obtain ⟨s', hn, hp, hor⟩ := h s hs
    cases hd : done s' with
    | true => exact ⟨[], s', by simp [collect, hn, hd], hd, hp, by simp⟩
    | false =>
      rcases hor with hd' | ⟨hi, hlt⟩
      · rw [hd] at hd'; cases hd'
      · obtain ⟨l, last, hc, hdl, hpl, hall⟩ := ih s' hi (by omega)
        refine ⟨s' :: l, last, by simp [collect, hn, hd, hc], hdl, hpl, ?_⟩
        intro x hx
        rcases List.mem_cons.mp hx with rfl | hx
        · exact ⟨hp, hd⟩
        · exact hall x hx

theorem collect_cons {fuel : Nat} {s s' : σ}
    {l : List σ} {last : σ} (hn : next s = .ok s') (hd : done s' = false)
    (hc : collect next done out fuel s' = .ok (l, last)) :
    collect next done out (fuel + 1) s = .ok (s' :: l, last) := by
  simp [collect, hn, hd, hc]

/-- The iteration that goes on from the outcome of a call of `next` reads `bs`, one record at each
state it stops at, and ends in a state of `Q`. -/
inductive Yields {β : Type} (next : σ → Except ε σ) (done : σ → Bool) (read : σ → Except ε β)
    (Q : σ → Prop) : Except ε σ → List β → Prop where
  | finish {s : σ} (hd : done s = true) (hq : Q s) : Yields next done read Q (.ok s) []
  | more {s : σ} {b : β} {bs : List β} (hd : done s = false) (hr : read s = .ok b)
      (h : Yields next done read Q (next s) bs) : Yields next done read Q (.ok s) (b :: bs)

theorem Yields.collect {read : σ → Except ε β} : ∀ {fuel : Nat} {s last : σ} {l : List σ} {bs : List β},
      Yields next done read Q (next s) bs → collect next done out fuel s = .ok (l, last) →
      l.mapM read = .ok bs ∧ Q last := by
  intro fuel
  induction fuel with
  | zero => intro s last l bs _ h; cases h
  | succ fuel ih =>
    intro s last l bs hy h
    simp only [Loop.collect] at h
    generalize next s = r at hy h
    cases hy with
    | finish hd hq =>
      simp only [hd, if_true] at h
      cases h
      exact ⟨rfl, hq⟩
    | @more s' b bs hd hr hy =>
      simp only [hd, Bool.false_eq_true, if_false] at h
      cases hc : Loop.collect next done out fuel s' with
      | error e => rw [hc] at h; cases h
      | ok r =>
        simp only [hc] at h
        cases h
        obtain ⟨hm, hq⟩ := ih hy hc
        rw [List.mapM_cons, hr, hm]
        exact ⟨rfl, hq⟩

theorem mapM_forall₂ {bs : List β} (h : List.Forall₂ (fun a b => f a = .ok b) l bs) : l.mapM f = .ok bs := by
  induction h with
  | nil => rfl
  | cons hb _ ih =>
    rw [List.mapM_cons, hb, ih]
    rfl

theorem mapM_map {g : α → β} (h : ∀ a ∈ l, f a = .ok (g a)) : l.mapM f = .ok (l.map g) := by
  refine mapM_forall₂ ?_
  rw [List.forall₂_map_right_iff, List.forall₂_same]
  exact h

end Loop

/-! ## Code that does not fail -/

section
variable {ε α β : Type}

/-- The code does not fail, and what it returns satisfies `Q`. -/
def Yields (x : Except ε α) (Q : α → Prop) : Prop := ∃ a, x = .ok a ∧ Q a

variable {Q P : α → Prop} {x : Except ε α}

theorem Yields.pure {a : α} (h : Q a) : Yields (.ok a : Except ε α) Q := ⟨a, rfl, h⟩

theorem Yields.mono (h : Yields x P) (hPQ : ∀ a, P a → Q a) : Yields x Q := by
  obtain ⟨a, hx, ha⟩ := h
  exact ⟨a, hx, hPQ a ha⟩

theorem Yields.bind {f : α → Except ε β} {Q : β → Prop} (h : Yields x P)
    (hf : ∀ a, P a → Yields (f a) Q) : Yields (x >>= f) Q := by
  obtain ⟨a, rfl, ha⟩ := h
  exact hf a ha

end

/-! ## Runs -/

inductive Reaches {σ α : Type} (init : σ → Prop) (step : σ → α → σ → Prop)
    (allowed : σ → α → Prop) : σ → Prop where
  | start {s : σ} (h : init s) : Reaches init step allowed s
  | step {s s' : σ} {a : α} (h : Reaches init step allowed s) (ha : allowed s a) (hs : step s a s') :
      Reaches init step allowed s'

theorem Reaches.invariant {σ α : Type} {init : σ → Prop} {step : σ → α → σ → Prop}
    {allowed : σ → α → Prop} {I : σ → Prop} (hinit : ∀ s, init s → I s)
    (hstep : ∀ s a s', I s → allowed s a → step s a s' → I s') {s : σ} (h : Reaches init step allowed s) : I s := by
  induction h with
  | start h => exact hinit _ h
  | step _ ha hs ih => exact hstep _ _ _ ih ha hs
