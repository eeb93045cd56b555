import Mathlib.Data.List.AList
import Mathlib.Logic.Function.Basic

/-!
# RocToolkit.Lib.Indexes

Records that are found by their keys. `Indexes keys t m` says that `m` leads from every key of every record
of `t` to that record, and knows no other key; it follows that no two records share a key. Changing a
record keeps the relation if `m` learns the keys that the record gains and forgets those that it loses.

Dictionaries are association lists; what they hold is the function `Dict.get`.
-/

open Function (update)

abbrev Dict (κ α : Type) := AList fun _ : κ => α

namespace Dict

variable {κ α : Type} [DecidableEq κ]

def get (d : Dict κ α) (k : κ) : Option α := d.lookup k

theorem get_insert (d : Dict κ α) (k : κ) (a : α) : get (d.insert k a) = update d.get k (some a) := by
  funext j
  by_cases h : j = k
  · subst h
    rw [Function.update_self]
    exact AList.lookup_insert d
  · rw [Function.update_of_ne h]
    exact AList.lookup_insert_ne h

theorem get_erase (d : Dict κ α) (k : κ) : get (d.erase k) = update d.get k none := by
  funext j
  by_cases h : j = k
  · subst h
    rw [Function.update_self]
    exact AList.lookup_erase j d
  · rw [Function.update_of_ne h]
    exact AList.lookup_erase_ne h

end Dict

section
variable {ι κ ρ : Type}

def Indexes (keys : ρ → List κ) (t : ι → Option ρ) (m : κ → Option ι) : Prop :=
  ∀ k i, m k = some i ↔ ∃ r, t i = some r ∧ k ∈ keys r

namespace Indexes

variable {keys : ρ → List κ} {t : ι → Option ρ} {m m' : κ → Option ι} {i j : ι} {r r' : ρ} {k : κ}

theorem empty : Indexes keys (fun _ : ι => none) (fun _ : κ => none) := by
  intro k i
  simp

section
variable (h : Indexes keys t m)
include h

theorem find (hf : t i = some r) (hk : k ∈ keys r) : m k = some i := (h k i).mpr ⟨r, hf, hk⟩

theorem eq_none : m k = none ↔ ∀ i r, t i = some r → k ∉ keys r := by
  constructor
  · intro hn i r hf hk
    rw [h.find hf hk] at hn
    cases hn
  · intro hall
    cases hl : m k with
    | none => rfl
    | some i =>
      obtain ⟨r, hf, hk⟩ := (h k i).mp hl
      exact absurd hk (hall i r hf)

theorem unique (hi : t i = some r) (hj : t j = some r') (hk : k ∈ keys r) (hk' : k ∈ keys r') : i = j := by
  have hl := h.find hi hk
  rw [h.find hj hk'] at hl
  exact (Option.some.inj hl).symm

theorem mem_iff (hf : t i = some r) : k ∈ keys r ↔ m k = some i := by
  rw [h k i, hf]
  simp

theorem not_member (hf : t i = some r) (hk : ∀ k, k ∉ keys r) (k : κ) : m k ≠ some i :=
  fun hm => hk k ((h.mem_iff hf).mpr hm)

theorem new_ne (hf : t i = none) (k : κ) : m k ≠ some i := by
  rw [Ne, h k i, hf]
  simp

variable [DecidableEq ι]

theorem write (hm : ∀ k j, m' k = some j ↔ if j = i then k ∈ keys r' else m k = some j) :
    Indexes keys (update t i (some r')) m' := by
  intro k j
  rw [hm k j, Function.update_apply]
  by_cases hj : j = i
  · simp [hj]
  · rw [if_neg hj, if_neg hj]
    exact h k j

theorem stay (hk : ∀ k, k ∈ keys r' ↔ m k = some i) : Indexes keys (update t i (some r')) m := by
  refine h.write fun k j => ?_
  by_cases hj : j = i
  · rw [if_pos hj, hk k, hj]
  · rw [if_neg hj]

theorem put [DecidableEq κ] (hn : m k = none) (hk : ∀ k', k' ∈ keys r' ↔ k' = k ∨ m k' = some i) :
    Indexes keys (update t i (some r')) (update m k (some i)) := by
  refine h.write fun k' j => ?_
  rw [Function.update_apply, hk]
  by_cases hk' : k' = k
  · subst hk'
    by_cases hj : j = i
    · simp [hj]
    · have hij : ¬ i = j := fun he => hj he.symm
      simp [hj, hij, hn]
  · by_cases hj : j = i
    · simp [hj, hk']
    · simp [hj, hk']

section
variable (hf : t i = some r)
include hf

theorem keep (hk : ∀ k, k ∈ keys r' ↔ k ∈ keys r) : Indexes keys (update t i (some r')) m :=
  h.stay fun k => by rw [hk, h.mem_iff hf]

theorem same (hk : keys r' = keys r) : Indexes keys (update t i (some r')) m := h.keep hf fun k => by rw [hk]

theorem gain [DecidableEq κ] (hn : m k = none) (hk : ∀ k', k' ∈ keys r' ↔ k' = k ∨ k' ∈ keys r) :
    Indexes keys (update t i (some r')) (update m k (some i)) :=
  h.put hn fun k' => by rw [hk, h.mem_iff hf]

theorem lose [DecidableEq κ] (hkr : k ∈ keys r) (hk : ∀ k', k' ∈ keys r' ↔ k' ≠ k ∧ k' ∈ keys r) :
    Indexes keys (update t i (some r')) (update m k none) := by
  refine h.write fun k' j => ?_
  rw [Function.update_apply, hk, h.mem_iff hf]
  by_cases hk' : k' = k
  · subst hk'
    rw [h.find hf hkr]
    by_cases hj : j = i
    · simp [hj]
    · have hij : ¬ i = j := fun he => hj he.symm
      simp [hj, hij]
  · by_cases hj : j = i
    · simp [hj, hk']
    · simp [hj, hk']

end

section
variable (hf : t i = none)
include hf

theorem add (hk : keys r' = []) : Indexes keys (update t i (some r')) m :=
  h.stay fun k => by simp [hk, h.new_ne hf k]

theorem add_one [DecidableEq κ] (hn : m k = none) (hk : keys r' = [k]) :
    Indexes keys (update t i (some r')) (update m k (some i)) :=
  h.put hn fun k' => by simp [hk, h.new_ne hf k']

end

theorem erase [DecidableEq κ] (hf : t i = some r)
    (hm : ∀ k, m' k = if k ∈ keys r then none else m k) : Indexes keys (update t i none) m' := by
  intro k j
  rw [hm k, Function.update_apply]
  by_cases hj : j = i
  · subst hj
    by_cases hk : k ∈ keys r
    · simp [hk]
    · simp only [hk, if_false, if_true, reduceCtorEq, false_and, exists_false, iff_false]
      rw [← h.mem_iff hf]
      exact hk
  · rw [if_neg hj]
    by_cases hk : k ∈ keys r
    · rw [if_pos hk]
      refine iff_of_false (by simp) ?_
      rintro ⟨r', hf', hk'⟩
      exact hj (h.unique hf' hf hk' hk)
    · rw [if_neg hk]
      exact h k j

end
end Indexes
end
