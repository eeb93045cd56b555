import Mathlib.Algebra.Order.Group.Multiset
import Mathlib.Data.Multiset.Count

/-!
# RocToolkit.Lib.Pool

Threads that run calls of one object. What a thread has left to do is a program counter of type `κ`; the
calls that are going on form a multiset, and what they share has type `σ`. One step takes one call and
does the next atomic operation of it, after which the call is at another place or has returned. New calls
begin at any time. Facts about the calls are sums: how many calls are at a place of a given kind.
-/

structure Pool (σ κ : Type) where
  shared : σ
  calls : Multiset κ

namespace Pool

variable {σ κ ε α : Type}

def resume : Option κ → Multiset κ → Multiset κ
  | none, rest => rest
  | some pc, rest => pc ::ₘ rest

theorem mem_resume {pc : κ} {next : Option κ} {rest : Multiset κ} (h : pc ∈ resume next rest) :
    next = some pc ∨ pc ∈ rest := by
  cases next with
  | none => exact .inr h
  | some next => exact (Multiset.mem_cons.mp h).imp_left fun he => by rw [he]

inductive Label (ε α κ : Type) where
  | enter (e : ε)
  | advance (a : α) (pc : κ)

/-- A call begins, or one that is going on does what `advance` says. -/
inductive Step (enter : ε → σ → Option (σ × κ)) (advance : α → σ → κ → Option (σ × Option κ)) :
    Pool σ κ → Label ε α κ → Pool σ κ → Prop where
  | enter {s s' : σ} {e : ε} {pc : κ} {calls : Multiset κ} (h : enter e s = some (s', pc)) :
      Step enter advance ⟨s, calls⟩ (.enter e) ⟨s', pc ::ₘ calls⟩
  | advance {s s' : σ} {a : α} {pc : κ} {next : Option κ} {rest : Multiset κ} (h : advance a s pc = some (s', next)) :
      Step enter advance ⟨s, pc ::ₘ rest⟩ (.advance a pc) ⟨s', resume next rest⟩

variable {advance : α → σ → κ → Option (σ × Option κ)}

theorem Step.enter_of_zero {enter : ε → σ → Option (σ × κ)}
    {s : σ} {l : Label ε α κ} {c : Pool σ κ} (h : Step enter advance ⟨s, 0⟩ l c) :
    ∃ e s' pc, l = .enter e ∧ enter e s = some (s', pc) := by
  generalize hcalls : (0 : Multiset κ) = calls at h
  cases h with
  | enter he => exact ⟨_, _, _, rfl, he⟩
  | advance _ => exact absurd hcalls.symm (Multiset.cons_ne_zero)

def runCall (advance : α → σ → κ → Option (σ × Option κ)) : List α → σ → κ → Option (σ × Option κ)
  | [], s, pc => some (s, some pc)
  | a :: rest, s, pc =>
    match advance a s pc, rest with
    | some (s', some pc'), rest => runCall advance rest s' pc'
    | some (s', none), [] => some (s', none)
    | _, _ => none

theorem runCall_keeps {I : σ → Option κ → Prop}
    (hstep : ∀ a s pc s' next, I s (some pc) → advance a s pc = some (s', next) → I s' next) :
    ∀ {choices : List α} {s s' : σ} {pc : κ} {next : Option κ}, I s (some pc) →
      runCall advance choices s pc = some (s', next) → I s' next := by
  intro choices
  induction choices with
  | nil =>
    intro s s' pc next hs h
    cases h
    exact hs
  | cons a rest ih =>
    intro s s' pc next hs h
    unfold runCall at h
    split at h
    · rename_i s1 pc1 ha
      exact ih (hstep a s pc s1 (some pc1) hs ha) h
    · rename_i s1 ha
      cases h
      exact hstep a s pc s' none hs ha
    · cases h

section
variable (p q r : κ → Bool)

/-- How many calls are at a place of the kind `p`. -/
def count (calls : Multiset κ) : Nat := calls.countP fun pc => p pc

variable {calls rest : Multiset κ} {pc : κ}

@[simp] theorem count_zero : count p (0 : Multiset κ) = 0 := rfl

@[simp] theorem count_cons : count p (pc ::ₘ rest) = count p rest + (p pc).toNat := by
  unfold count
  cases h : p pc with
  | false => simp [h]
  | true => simp [h]

/-- One if the call has not returned and is at a place of the kind `p`. -/
def weight : Option κ → Nat
  | none => 0
  | some pc => (p pc).toNat

theorem count_resume {next : Option κ} : count p (resume next rest) = count p rest + weight p next := by
  cases next with
  | none => rfl
  | some pc => exact count_cons p

theorem count_le_add (h : ∀ pc, p pc = true → q pc = true ∨ r pc = true) (calls : Multiset κ) :
    count p calls ≤ count q calls + count r calls := by
  induction calls using Multiset.induction_on with
  | empty => simp
  | cons pc rest ih =>
    rw [count_cons, count_cons, count_cons]
    have hpc := h pc
    cases hp : p pc with
    | false =>
      rw [Bool.toNat_false]
      omega
    | true =>
      rcases hpc hp with hq | hr
      · rw [hq, Bool.toNat_true]
        omega
      · rw [hr, Bool.toNat_true]
        omega

theorem count_le (h : ∀ pc, p pc = true → q pc = true) (calls : Multiset κ) : count p calls ≤ count q calls := by
  have hle := count_le_add p q (fun _ => false) (fun pc hp => .inl (h pc hp)) calls
  have hzero : count (fun _ => false) calls = 0 := by simp [count]
  omega

end

end Pool
