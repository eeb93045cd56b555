/-!
# RocToolkit.Lib.Machine

Machines that read a text symbol by symbol, as a scanner generator makes them: a transition reads one symbol
and does the actions on it, and the end of the text does the actions of the last place. Both may stop the
machine.

* `Reads m s w s'` : the machine goes from `s` to `s'` over the text `w`.
* `run_reads` : what is read first can be read alone.
* `Reads.token` : the loop of a place that collects symbols.
* `run_induct` : what holds of every place and the text before it, and so of the result and the whole text.
-/

structure Machine (α σ ε ρ : Type) where
  step : σ → α → Except ε σ
  eof : σ → Except ε ρ

namespace Machine

open List

variable {α σ ε ρ : Type} (m : Machine α σ ε ρ)

def run : σ → List α → Except ε ρ
  | s, [] => m.eof s
  | s, c :: rest =>
    match m.step s c with
    | .ok s' => run s' rest
    | .error e => .error e

inductive Reads : σ → List α → σ → Prop where
  | nil (s : σ) : Reads s [] s
  | cons {s s' s'' : σ} {c : α} {w : List α} : m.step s c = .ok s' → Reads s' w s'' → Reads s (c :: w) s''

variable {m} {s s' s'' : σ} {c : α} {w w' : List α} {e : ε} {r : ρ}

theorem run_cons (h : m.step s c = .ok s') (rest : List α) : m.run s (c :: rest) = m.run s' rest := by
  rw [run, h]

theorem run_cons_error (h : m.step s c = .error e) (rest : List α) : m.run s (c :: rest) = .error e := by
  rw [run, h]

theorem Reads.single (h : m.step s c = .ok s') : m.Reads s [c] s' := .cons h (.nil _)

theorem Reads.append (h : m.Reads s w s') (h' : m.Reads s' w' s'') : m.Reads s (w ++ w') s'' := by
  induction h with
  | nil s => exact h'
  | cons hc _ ih => exact .cons hc (ih h')

theorem run_reads (h : m.Reads s w s') (rest : List α) : m.run s (w ++ rest) = m.run s' rest := by
  induction h with
  | nil s => rfl
  | cons hc _ ih =>
    rw [cons_append, run_cons hc]
    exact ih

theorem Reads.token {f : List α → σ} {p : α → Prop} (hf : ∀ t c, p c → m.step (f t) c = .ok (f (t ++ [c])))
    (t : List α) (h : ∀ c ∈ w, p c) : m.Reads (f t) w (f (t ++ w)) := by
  induction w generalizing t with
  | nil =>
    rw [append_nil]
    exact .nil _
  | cons c w ih =>
    have hrest := ih (t ++ [c]) (forall_mem_cons.mp h).2
    rw [append_assoc, singleton_append] at hrest
    exact .cons (hf t c (h c mem_cons_self)) hrest

/-- An invariant of the place and of the text that was read to come there. -/
theorem run_induct {At : σ → List α → Prop} {Q : List α → ρ → Prop}
    (hstep : ∀ s w c s', At s w → m.step s c = .ok s' → At s' (w ++ [c]))
    (heof : ∀ s w r, At s w → m.eof s = .ok r → Q w r) (hs : At s w) (h : m.run s w' = .ok r) : Q (w ++ w') r := by
  induction w' generalizing s w with
  | nil =>
    rw [append_nil]
    exact heof s w r hs h
  | cons c rest ih =>
    unfold run at h
    split at h
    · next s' hc =>
      have hrest := ih (hstep s w c s' hs hc) h
      rwa [append_assoc, singleton_append] at hrest
    · cases h

end Machine
