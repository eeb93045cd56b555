import RocToolkit.Core.HashmapCalls
import RocToolkit.Lib.Indexes

/-!
# RocToolkit.Core.NodeMap

A `core::Hashmap` as the code that owns it sees it: a dictionary, together with the calls of the hash map that have
led to it, the last one first. A node is known by its key. `table` makes the calls on the buckets; there the map
panics when it has to grow and is blocked.
-/

namespace Roc.Core

open Function (update)

/-- `hashsum_int` of a `uint32_t`. -/
def hashsumInt32 (x : UInt32) : Nat :=
  let x := ((x >>> 16) ^^^ x) * 0x7feb352d
  let x := ((x >>> 15) ^^^ x) * 0x846ca68b
  let x := (x >>> 16) ^^^ x
  x.toNat <<< 32 ||| x.toNat

/-- `hashsum_int` of a `uint64_t`. -/
def hashsumInt64 (x : UInt64) : Nat :=
  let x := (x ^^^ (x >>> 30)) * 0xbf58476d1ce4e5b9
  let x := (x ^^^ (x >>> 27)) * 0x94d049bb133111eb
  (x ^^^ (x >>> 31)).toNat

namespace Hashmap

variable {κ : Type} [DecidableEq κ]

/-- Calls that a user may make, and the members they lead to. An insertion either gets memory or does not get beyond
`grow`. -/
inductive Journal : List (Call κ) → List κ → Prop where
  | nil : Journal [] []
  | insert {cs : List (Call κ)} {members : List κ} {k : κ} (h : Journal cs members) (hk : k ∉ members) :
      Journal (.insert k true :: cs) (members ++ [k])
  | remove {cs : List (Call κ)} {members : List κ} {k : κ} (h : Journal cs members) (hk : k ∈ members) :
      Journal (.remove k :: cs) (members.erase k)
  | refuse {cs : List (Call κ)} {members : List κ} (h : Journal cs members) : Journal (.grow false :: cs) members

section
variable (hash : κ → Nat) (numPreallocated : Nat)

def table : List (Call κ) → Except Fault (Hashmap κ)
  | [] => .ok { numPreallocatedBuckets := numPreallocated }
  | c :: cs => do
    let h ← table cs
    let (_, h) ← h.call id hash c
    return h

/-- No call has to grow a table that is blocked. -/
def Unblocked : List (Call κ) → Prop
  | [] => True
  | c :: cs => Unblocked cs ∧ ∀ h, table hash numPreallocated cs = .ok h → ¬ (c.Grows ∧ h.Blocked)

end

variable {hash : κ → Nat} {numPreallocated : Nat} {cs : List (Call κ)} {c : Call κ} {members : List κ} {h : Hashmap κ}

theorem table_cons (ht : table hash numPreallocated cs = .ok h) :
    table hash numPreallocated (c :: cs) = (h.call id hash c).map Prod.snd := by
  rw [table, ht, ok_bind]
  cases h.call id hash c <;> rfl

theorem Inv.insert_succeeds {k : κ} {h' : Hashmap κ} {succeeded : Bool} (hinv : Inv id hash h)
    (hr : h.call id hash (.insert k true) = .ok (succeeded, h')) : succeeded = true := by
  have hgrow : ∀ grown h1, h.grow true = .ok (grown, h1) → grown = true := by
    intro grown h1 hg
    by_cases hfull : h.Full
    · by_cases hpos : h.Stranded
      · obtain ⟨e, he⟩ := hinv.grow_of_stranded hfull hpos true
        cases he.symm.trans hg
      · rcases hinv.grow_of_full hfull hpos true with ⟨-, hno⟩ | ⟨h2, heq, -⟩
        · cases hno
        · cases heq.symm.trans hg
          rfl
    · cases (hinv.grow_of_not_full hfull true).symm.trans hg
      rfl
  change h.insert id hash k true = _ at hr
  rw [hinv.insert_eq] at hr
  cases hg : h.grow true with
  | error e => rw [hg] at hr; cases hr
  | ok p =>
    obtain ⟨grown, h1⟩ := p
    cases hgrow grown h1 hg
    rw [hg, ok_bind] at hr
    cases hi : h1.insertNode id hash k with
    | error e => simp only [hi] at hr; cases hr
    | ok h2 => simp only [hi] at hr; cases hr; rfl

/-- What the buckets hold, if the map has not panicked. -/
theorem Journal.table_inv (hj : Journal cs members) (ht : table hash numPreallocated cs = .ok h) :
    Inv id hash h ∧ h.all = members := by
  induction hj generalizing h with
  | nil =>
    cases ht
    exact ⟨inv_empty id hash numPreallocated, rfl⟩
  | @insert cs members k _ _ ih =>
    obtain ⟨h1, ht1, ht⟩ := bind_eq_ok.mp ht
    obtain ⟨⟨succeeded, h2⟩, hcall, ht⟩ := bind_eq_ok.mp ht
    cases ht
    obtain ⟨hinv, rfl⟩ := ih ht1
    cases hinv.insert_succeeds hcall
    exact hinv.call_ok hcall
  | remove _ _ ih | refuse _ ih =>
    obtain ⟨h1, ht1, ht⟩ := bind_eq_ok.mp ht
    obtain ⟨⟨succeeded, h2⟩, hcall, ht⟩ := bind_eq_ok.mp ht
    cases ht
    obtain ⟨hinv, rfl⟩ := ih ht1
    exact hinv.call_ok hcall

theorem Journal.nodup (hj : Journal cs members) : members.Nodup := by
  induction hj with
  | nil => exact .nil
  | insert _ hk ih => exact List.nodup_append_comm.mp (List.nodup_cons.mpr ⟨hk, ih⟩)
  | remove _ _ ih => exact ih.erase _
  | refuse _ ih => exact ih

/-- A call panics exactly if it has to grow a table that is blocked. -/
theorem Journal.table_cons_iff (hj : Journal (c :: cs) members) (ht : table hash numPreallocated cs = .ok h) :
    (∃ h', table hash numPreallocated (c :: cs) = .ok h') ↔ ¬ (c.Grows ∧ h.Blocked) := by
  have hvalid : Inv id hash h ∧ c.Valid id h.all := by
    cases hj with
    | insert hj hk =>
      obtain ⟨hinv, rfl⟩ := hj.table_inv ht
      exact ⟨hinv, hk, by rintro m hm rfl; exact hk hm⟩
    | remove hj hk =>
      obtain ⟨hinv, rfl⟩ := hj.table_inv ht
      exact ⟨hinv, hk⟩
    | refuse hj => exact ⟨(hj.table_inv ht).1, trivial⟩
  obtain ⟨hinv, hvalid⟩ := hvalid
  rw [table_cons ht]
  by_cases hblocked : c.Grows ∧ h.Blocked
  · obtain ⟨e, he⟩ := hinv.call_of_blocked hblocked.1 hblocked.2
    rw [he]
    exact iff_of_false nofun (not_not_intro hblocked)
  · obtain ⟨succeeded, h', heq, -⟩ := hinv.call_returns hvalid hblocked
    rw [heq]
    exact iff_of_true ⟨h', rfl⟩ hblocked

theorem Journal.tail (hj : Journal (c :: cs) members) : ∃ members', Journal cs members' := by
  cases hj with
  | insert hj _ | remove hj _ | refuse hj => exact ⟨_, hj⟩

theorem Journal.table_ok_iff (hj : Journal cs members) :
    (∃ h, table hash numPreallocated cs = .ok h) ↔ Unblocked hash numPreallocated cs := by
  induction cs generalizing members with
  | nil => exact iff_of_true ⟨_, rfl⟩ trivial
  | cons c cs ih =>
    obtain ⟨members', hj'⟩ := hj.tail
    rw [Unblocked, ← ih hj']
    constructor
    · rintro ⟨h', ht⟩
      obtain ⟨h, ht', -⟩ := bind_eq_ok.mp ht
      exact ⟨⟨h, ht'⟩, fun h1 ht1 => (hj.table_cons_iff ht1).mp ⟨h', ht⟩⟩
    · rintro ⟨⟨h, ht⟩, hfree⟩
      exact (hj.table_cons_iff ht).mpr (hfree h ht)

end Hashmap

/-! ## Maps -/

open Hashmap (Call Journal)

structure NodeMap (κ α : Type) [DecidableEq κ] where
  entries : Dict κ α
  calls : List (Call κ)
  journal : ∃ members, Journal calls members ∧ ∀ k, k ∈ members ↔ entries.get k ≠ none

namespace NodeMap

variable {κ α : Type} [DecidableEq κ]

instance : EmptyCollection (NodeMap κ α) := ⟨⟨∅, [], [], .nil, fun k => by simp [Dict.get]⟩⟩

variable (m : NodeMap κ α) (k : κ)

def get : Option α := m.entries.get k

def keys : List κ := m.entries.keys

def table (hash : κ → Nat) (numPreallocated : Nat) : Except Fault (Hashmap κ) :=
  Hashmap.table hash numPreallocated m.calls

/-- A new node is inserted; the value of one that is there is replaced. -/
def insert (a : α) : NodeMap κ α where
  entries := m.entries.insert k a
  calls := if m.get k = none then .insert k true :: m.calls else m.calls
  journal := by
    obtain ⟨members, hj, hmem⟩ := m.journal
    rw [Dict.get_insert]
    split
    · next hk =>
      refine ⟨_, hj.insert fun hm => (hmem k).mp hm hk, fun j => ?_⟩
      rw [List.mem_append, List.mem_singleton, hmem, Function.update_apply]
      by_cases hjk : j = k <;> simp [hjk]
    · next hk =>
      refine ⟨members, hj, fun j => ?_⟩
      rw [hmem, Function.update_apply]
      by_cases hjk : j = k
      · subst hjk
        simpa [get] using hk
      · simp [hjk]

def erase : NodeMap κ α where
  entries := m.entries.erase k
  calls := if m.get k = none then m.calls else .remove k :: m.calls
  journal := by
    obtain ⟨members, hj, hmem⟩ := m.journal
    rw [Dict.get_erase]
    split
    · next hk =>
      refine ⟨members, hj, fun j => ?_⟩
      rw [hmem, Function.update_apply]
      by_cases hjk : j = k
      · subst hjk
        simpa [get] using hk
      · simp [hjk]
    · next hk =>
      refine ⟨_, hj.remove ((hmem k).mpr hk), fun j => ?_⟩
      rw [hj.nodup.mem_erase_iff, hmem, Function.update_apply]
      by_cases hjk : j = k <;> simp [hjk]

/-- An insertion for which there is no memory. -/
def refuse : NodeMap κ α where
  entries := m.entries
  calls := .grow false :: m.calls
  journal := by
    obtain ⟨members, hj, hmem⟩ := m.journal
    exact ⟨members, hj.refuse, hmem⟩

variable {m k}

theorem get_insert (a : α) : (m.insert k a).get = update m.get k (some a) := Dict.get_insert _ _ _

theorem get_erase : (m.erase k).get = update m.get k none := Dict.get_erase _ _

variable {hash : κ → Nat} {numPreallocated : Nat} {h : Hashmap κ}

theorem table_insert_iff {a : α} (hk : m.get k = none) (ht : m.table hash numPreallocated = .ok h) :
    (∃ h', (m.insert k a).table hash numPreallocated = .ok h') ↔ ¬ h.Blocked := by
  obtain ⟨members, hj, -⟩ := (m.insert k a).journal
  unfold table
  simp only [insert, if_pos hk] at hj ⊢
  rw [hj.table_cons_iff ht]
  exact not_congr (and_iff_right trivial)

theorem table_refuse_iff (ht : m.table hash numPreallocated = .ok h) :
    (∃ h', m.refuse.table hash numPreallocated = .ok h') ↔ ¬ h.Blocked := by
  obtain ⟨members, hj, -⟩ := m.refuse.journal
  exact (hj.table_cons_iff ht).trans (not_congr (and_iff_right trivial))

theorem table_insert_of_some {a b : α} (hk : m.get k = some b) :
    (m.insert k a).table hash numPreallocated = m.table hash numPreallocated := by
  unfold table
  simp only [insert, hk, reduceCtorEq, if_false]

theorem table_erase (ht : m.table hash numPreallocated = .ok h) :
    ∃ h', (m.erase k).table hash numPreallocated = .ok h' := by
  obtain ⟨members, hj, -⟩ := (m.erase k).journal
  unfold table
  by_cases hk : m.get k = none
  · simp only [erase, if_pos hk]
    exact ⟨h, ht⟩
  · simp only [erase, if_neg hk] at hj ⊢
    exact (hj.table_cons_iff ht).mpr fun hno => hno.1

end NodeMap
end Roc.Core
