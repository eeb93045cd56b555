import Mathlib.Data.List.Nodup
import Mathlib.Data.List.Perm.Lattice
import Mathlib.Data.List.TakeWhile

/-!
# RocToolkit.Lib.LruTable

A table of keyed records together with a list of its keys, most recently used first. The table
iterates in insertion order and holds each key once; the list holds exactly the keys of the table.

`Front q` says that the records with property `q` come first in the list, so that a walk from the
front that stops at the first record without `q` meets them all, and a walk from the back that stops
at the first record with `q` meets all the others.
-/

structure LruTable (κ α : Type) where
  entries : List (κ × α)
  lru : List κ
  nodup : (entries.map Prod.fst).Nodup
  perm : lru.Perm (entries.map Prod.fst)
deriving DecidableEq, Repr

namespace LruTable

open List List.Pairwise

variable {κ α : Type}

def empty : LruTable κ α := ⟨[], [], List.nodup_nil, .refl _⟩

variable [DecidableEq κ]

def find (t : LruTable κ α) (k : κ) : Option α := (t.entries.find? fun e => e.1 = k).map Prod.snd

theorem map_fst_modify (l : List (κ × α)) (k : κ) (f : α → α) :
    (l.map fun e => if e.1 = k then (e.1, f e.2) else e).map Prod.fst = l.map Prod.fst := by
  rw [map_map]
  refine map_congr_left fun e _ => ?_
  simp only [Function.comp_apply]
  split <;> rfl

theorem map_fst_filter (l : List (κ × α)) (k : κ) :
    (l.filter fun e => e.1 != k).map Prod.fst = (l.map Prod.fst).filter (· != k) := by
  induction l with
  | nil => rfl
  | cons e l ih =>
    rw [map_cons, filter_cons, filter_cons, ← ih]
    split <;> rfl

def insert (t : LruTable κ α) (k : κ) (a : α) : LruTable κ α :=
  if h : k ∈ t.entries.map Prod.fst then t
  else
    { entries := t.entries ++ [(k, a)]
      lru := k :: t.lru
      nodup := by
        rw [List.map_append]
        refine t.nodup.append (List.nodup_singleton _) ?_
        intro x hx hk
        rw [List.map_singleton, List.mem_singleton] at hk
        rw [hk] at hx
        exact h hx
      perm := by
        rw [List.map_append]
        exact (List.Perm.cons k t.perm).trans (List.perm_append_singleton k _).symm }

def modify (t : LruTable κ α) (k : κ) (f : α → α) : LruTable κ α where
  entries := t.entries.map fun e => if e.1 = k then (e.1, f e.2) else e
  lru := t.lru
  nodup := by rw [map_fst_modify]; exact t.nodup
  perm := by rw [map_fst_modify]; exact t.perm

def touch (t : LruTable κ α) (k : κ) : LruTable κ α :=
  if h : k ∈ t.lru then
    { t with lru := k :: t.lru.erase k, perm := (List.perm_cons_erase h).symm.trans t.perm }
  else t

def remove (t : LruTable κ α) (k : κ) : LruTable κ α where
  entries := t.entries.filter fun e => e.1 != k
  lru := t.lru.erase k
  nodup := by rw [map_fst_filter]; exact t.nodup.filter _
  perm := by
    rw [map_fst_filter, ← t.nodup.erase_eq_filter]
    exact t.perm.erase k

def mapValues (t : LruTable κ α) (f : α → α) : LruTable κ α where
  entries := t.entries.map fun e => (e.1, f e.2)
  lru := t.lru
  nodup := by rw [List.map_map]; exact t.nodup
  perm := by rw [List.map_map]; exact t.perm

/-- Remove the records of `keys`, in this order, up to the first one that has the property. -/
def removeUntil (q : α → Bool) : List κ → LruTable κ α → LruTable κ α
  | [], t => t
  | k :: keys, t => if (t.find k).any q then t else removeUntil q keys (t.remove k)

def trim (t : LruTable κ α) (q : α → Bool) : LruTable κ α := removeUntil q t.lru.reverse t

section
variable {t : LruTable κ α} {k j : κ} {a : α} {f : α → α}

theorem find_eq_some : t.find k = some a ↔ (k, a) ∈ t.entries := by
  unfold find
  have hnd := t.nodup
  generalize t.entries = l at hnd ⊢
  induction l with
  | nil => simp
  | cons e l ih =>
    rw [map_cons, nodup_cons] at hnd
    by_cases he : e.1 = k
    · rw [List.find?_cons_of_pos (by simpa using he)]
      constructor
      · intro h
        have h2 : e.2 = a := by simpa using h
        rw [← he, ← h2]
        exact mem_cons_self
      · intro h
        rcases mem_cons.mp h with h | h
        · rw [← h]; rfl
        · exact absurd (mem_map.mpr ⟨_, h, he.symm⟩) hnd.1
    · rw [List.find?_cons_of_neg (by simpa using he)]
      refine (ih hnd.2).trans ⟨mem_cons_of_mem _, ?_⟩
      · intro h
        rcases mem_cons.mp h with h | h
        · rw [← h] at he; exact absurd rfl he
        · exact h

theorem find_eq_none : t.find k = none ↔ k ∉ t.entries.map Prod.fst := by
  constructor
  · intro h hk
    obtain ⟨⟨k', b⟩, he, rfl⟩ := mem_map.mp hk
    rw [find_eq_some.mpr he] at h
    cases h
  · intro h
    cases hf : t.find k with
    | none => rfl
    | some b => exact absurd (mem_map.mpr ⟨_, find_eq_some.mp hf, rfl⟩) h

theorem mem_lru : k ∈ t.lru ↔ ∃ b, t.find k = some b := by
  rw [t.perm.mem_iff]
  constructor
  · intro h
    obtain ⟨⟨k', b⟩, he, rfl⟩ := mem_map.mp h
    exact ⟨b, find_eq_some.mpr he⟩
  · rintro ⟨b, hb⟩
    exact mem_map.mpr ⟨_, find_eq_some.mp hb, rfl⟩

omit [DecidableEq κ] in
theorem lru_nodup : t.lru.Nodup := t.perm.nodup_iff.mpr t.nodup

theorem entries_insert (h : t.find k = none) : (t.insert k a).entries = t.entries ++ [(k, a)] := by
  unfold insert
  rw [dif_neg (find_eq_none.mp h)]

theorem lru_insert (h : t.find k = none) : (t.insert k a).lru = k :: t.lru := by
  unfold insert
  rw [dif_neg (find_eq_none.mp h)]

@[simp] theorem entries_modify :
    (t.modify k f).entries = t.entries.map fun e => if e.1 = k then (e.1, f e.2) else e := rfl

@[simp] theorem lru_modify : (t.modify k f).lru = t.lru := rfl

@[simp] theorem entries_touch : (t.touch k).entries = t.entries := by
  unfold touch
  split <;> rfl

theorem lru_touch (h : t.find k = some a) : (t.touch k).lru = k :: t.lru.erase k := by
  unfold touch
  rw [dif_pos (mem_lru.mpr ⟨a, h⟩)]

@[simp] theorem lru_remove : (t.remove k).lru = t.lru.erase k := rfl

@[simp] theorem entries_remove : (t.remove k).entries = t.entries.filter fun e => e.1 != k := rfl

theorem find_insert (h : t.find k = none) : (t.insert k a).find j = if j = k then some a else t.find j := by
  by_cases hj : j = k
  · rw [if_pos hj, hj, find_eq_some, entries_insert h]
    simp
  · rw [if_neg hj]
    ext b
    rw [find_eq_some, entries_insert h, find_eq_some]
    simp [hj]

theorem find_modify : (t.modify k f).find j = if j = k then (t.find k).map f else t.find j := by
  by_cases hj : j = k
  · rw [if_pos hj, hj]
    ext b
    rw [find_eq_some, entries_modify, mem_map]
    constructor
    · rintro ⟨⟨k', c⟩, hm, he⟩
      by_cases hk : k' = k
      · rw [if_pos hk] at he
        cases he
        rw [find_eq_some.mpr (hk ▸ hm)]
        rfl
      · rw [if_neg hk] at he
        cases he
        exact absurd rfl hk
    · intro hb
      obtain ⟨c, hc, rfl⟩ := Option.map_eq_some_iff.mp hb
      exact ⟨(k, c), find_eq_some.mp hc, if_pos rfl⟩
  · rw [if_neg hj]
    ext b
    rw [find_eq_some, entries_modify, mem_map, find_eq_some]
    constructor
    · rintro ⟨⟨k', c⟩, hm, he⟩
      by_cases hk : k' = k
      · rw [if_pos hk] at he
        cases he
        exact absurd hk hj
      · rw [if_neg hk] at he
        cases he
        exact hm
    · intro hm
      exact ⟨(j, b), hm, if_neg hj⟩

@[simp] theorem find_touch : (t.touch k).find j = t.find j := by
  unfold find
  rw [entries_touch]

theorem find_remove : (t.remove k).find j = if j = k then none else t.find j := by
  by_cases hj : j = k
  · rw [if_pos hj, hj]
    refine find_eq_none.mpr fun h => ?_
    rw [entries_remove, map_fst_filter] at h
    simp at h
  · rw [if_neg hj]
    ext b
    rw [find_eq_some, entries_remove, mem_filter, find_eq_some]
    simp [hj]

theorem find_mapValues : (t.mapValues f).find k = (t.find k).map f := by
  ext b
  rw [find_eq_some, Option.map_eq_some_iff]
  constructor
  · intro h
    obtain ⟨e, he, heq⟩ := mem_map.mp h
    cases heq
    exact ⟨e.2, find_eq_some.mpr he, rfl⟩
  · rintro ⟨a, ha, rfl⟩
    exact mem_map.mpr ⟨(k, a), find_eq_some.mp ha, rfl⟩

end

/-! ## Tables that extend a table -/

/-- The records of `t` in their order, each related by `Q` to what became of it, and after them
records with the property `N`. -/
def Extends (Q : α → α → Prop) (N : α → Prop) (t t' : LruTable κ α) : Prop := ∃ (g : κ → α → α) (fresh : List (κ × α)),
    t'.entries = t.entries.map (fun e => (e.1, g e.1 e.2)) ++ fresh ∧
    (∀ e ∈ t.entries, Q e.2 (g e.1 e.2)) ∧ ∀ e ∈ fresh, N e.2

section
variable {Q : α → α → Prop} {N : α → Prop} {t t' t'' : LruTable κ α} {k : κ} {a b : α} {f : α → α}

omit [DecidableEq κ] in
theorem Extends.of_map (g : κ → α → α) (he : t'.entries = t.entries.map fun e => (e.1, g e.1 e.2))
    (hg : ∀ e ∈ t.entries, Q e.2 (g e.1 e.2)) : Extends Q N t t' :=
  ⟨g, [], by rw [he, append_nil], hg, by simp⟩

omit [DecidableEq κ] in
theorem Extends.refl (hQ : ∀ a, Q a a) : Extends Q N t t := .of_map (fun _ a => a) (by simp) fun e _ => hQ e.2

omit [DecidableEq κ] in
theorem Extends.trans (h : Extends Q N t t') (h' : Extends Q N t' t'')
    (hQ : ∀ a b c, Q a b → Q b c → Q a c) (hN : ∀ a b, N a → Q a b → N b) : Extends Q N t t'' := by
  obtain ⟨g, fresh, he, hg, hfresh⟩ := h
  obtain ⟨g', fresh', he', hg', hfresh'⟩ := h'
  refine ⟨fun k a => g' k (g k a), fresh.map (fun e => (e.1, g' e.1 e.2)) ++ fresh', ?_, ?_, ?_⟩
  · rw [he', he, map_append, map_map, append_assoc]
    rfl
  · intro e hm
    refine hQ _ _ _ (hg e hm) (hg' (e.1, g e.1 e.2) ?_)
    rw [he]
    exact mem_append_left _ (mem_map.mpr ⟨e, hm, rfl⟩)
  · intro e hm
    rcases mem_append.mp hm with hm | hm
    · obtain ⟨x, hx, rfl⟩ := mem_map.mp hm
      refine hN _ _ (hfresh x hx) (hg' x ?_)
      rw [he]
      exact mem_append_right _ hx
    · exact hfresh' e hm

theorem Extends.insert (hQ : ∀ a, Q a a) (hk : t.find k = none) (ha : N a) : Extends Q N t (t.insert k a) := by
  refine ⟨fun _ a => a, [(k, a)], by rw [entries_insert hk]; simp, fun e _ => hQ e.2, ?_⟩
  intro e he
  rw [mem_singleton] at he
  rw [he]
  exact ha

section
variable (hQ : ∀ a, Q a a) (hf : ∀ a, t.find k = some a → Q a (f a))
include hQ hf

theorem Extends.modify : Extends Q N t (t.modify k f) := by
  refine .of_map (fun j a => if j = k then f a else a) ?_ ?_
  · rw [entries_modify]
    refine map_congr_left fun e _ => ?_
    split <;> rfl
  · intro e he
    by_cases hk : e.1 = k
    · rw [if_pos hk]
      exact hf e.2 (find_eq_some.mpr (hk ▸ he))
    · rw [if_neg hk]
      exact hQ e.2

theorem Extends.modify_touch : Extends Q N t ((t.modify k f).touch k) := by
  obtain ⟨g, fresh, he, hrest⟩ := Extends.modify (N := N) hQ hf
  exact ⟨g, fresh, by rw [entries_touch, he], hrest⟩

end
omit [DecidableEq κ] in
theorem Extends.mapValues (hf : ∀ a, Q a (f a)) : Extends Q N t (t.mapValues f) :=
  .of_map (fun _ => f) rfl fun e _ => hf e.2

theorem Extends.find (h : Extends Q N t t') (ha : t.find k = some a) : ∃ b, t'.find k = some b ∧ Q a b := by
  obtain ⟨g, fresh, he, hg, _⟩ := h
  have hm := find_eq_some.mp ha
  refine ⟨g k a, find_eq_some.mpr ?_, hg _ hm⟩
  rw [he]
  exact mem_append_left _ (mem_map.mpr ⟨_, hm, rfl⟩)

theorem Extends.find_back (h : Extends Q N t t') (hb : t'.find k = some b) :
    (∃ a, t.find k = some a ∧ Q a b) ∨ N b := by
  obtain ⟨g, fresh, he, hg, hfresh⟩ := h
  have hm := find_eq_some.mp hb
  rw [he, mem_append] at hm
  rcases hm with hm | hm
  · obtain ⟨e, he, heq⟩ := mem_map.mp hm
    cases heq
    exact .inl ⟨e.2, find_eq_some.mpr he, hg e he⟩
  · exact .inr (hfresh _ hm)

omit [DecidableEq κ] in
theorem Extends.filterMap {γ : Type} {p : κ × α → Option γ} (h : Extends Q N t t')
    (hQ : ∀ k a b, Q a b → p (k, b) = p (k, a)) (hN : ∀ k a, N a → p (k, a) = none) :
    t'.entries.filterMap p = t.entries.filterMap p := by
  obtain ⟨g, fresh, he, hg, hfresh⟩ := h
  have hnone : fresh.filterMap p = [] := by
    refine filterMap_eq_nil_iff.mpr ?_
    rintro ⟨k, a⟩ hm
    exact hN k a (hfresh _ hm)
  rw [he, filterMap_append, hnone, append_nil, filterMap_map]
  refine filterMap_congr fun e hm => ?_
  exact hQ e.1 e.2 _ (hg e hm)

end

/-! ## Records at the front of the list -/

def Holds (t : LruTable κ α) (q : α → Prop) (k : κ) : Prop := ∃ a, t.find k = some a ∧ q a

def Front (t : LruTable κ α) (q : α → Prop) : Prop := t.lru.Pairwise fun i j => t.Holds q j → t.Holds q i

section
variable {t : LruTable κ α} {k : κ} {a : α} {q : α → Prop} {f : α → α}

theorem Front.of_none (h : ∀ k a, t.find k = some a → ¬ q a) : t.Front q := by
  refine imp ?_ t.lru_nodup
  rintro i j _ ⟨a, ha, hq⟩
  exact absurd hq (h j a ha)

section
variable (h : t.Front q)
include h

theorem Front.insert (hk : t.find k = none) (ha : q a) : (t.insert k a).Front q := by
  have hold : ∀ j ∈ t.lru, ((t.insert k a).Holds q j ↔ t.Holds q j) := by
    intro j hj
    obtain ⟨b, hb⟩ := mem_lru.mp hj
    have hne : j ≠ k := by
      rintro rfl
      rw [hk] at hb
      cases hb
    unfold Holds
    rw [find_insert hk, if_neg hne]
  unfold Front
  rw [lru_insert hk, pairwise_cons]
  refine ⟨fun j _ _ => ⟨a, by rw [find_insert hk, if_pos rfl], ha⟩, ?_⟩
  refine h.imp_of_mem ?_
  intro i j hi hj hij hhold
  exact (hold i hi).mpr (hij ((hold j hj).mp hhold))

theorem Front.modify (hf : ∀ b, t.find k = some b → (q (f b) ↔ q b)) : (t.modify k f).Front q := by
  have hold : ∀ j, (t.modify k f).Holds q j ↔ t.Holds q j := by
    intro j
    unfold Holds
    rw [find_modify]
    by_cases hj : j = k
    · rw [if_pos hj, hj]
      constructor
      · rintro ⟨b, hb, hq⟩
        obtain ⟨c, hc, rfl⟩ := Option.map_eq_some_iff.mp hb
        exact ⟨c, hc, (hf c hc).mp hq⟩
      · rintro ⟨c, hc, hq⟩
        exact ⟨f c, by rw [hc]; rfl, (hf c hc).mpr hq⟩
    · rw [if_neg hj]
  refine imp ?_ h
  intro i j hij hhold
  exact (hold i).mpr (hij ((hold j).mp hhold))

theorem Front.modify_touch (hk : t.find k = some a) (ha : q (f a)) : ((t.modify k f).touch k).Front q := by
  have hfind : (t.modify k f).find k = some (f a) := by rw [find_modify, if_pos rfl, hk]; rfl
  have hold : ∀ j, j ≠ k → (((t.modify k f).touch k).Holds q j ↔ t.Holds q j) := by
    intro j hj
    unfold Holds
    rw [find_touch, find_modify, if_neg hj]
  unfold Front
  rw [lru_touch hfind, lru_modify, pairwise_cons]
  refine ⟨fun j _ _ => ⟨f a, by rw [find_touch]; exact hfind, ha⟩, ?_⟩
  have hsub : (t.lru.erase k).Pairwise fun i j => t.Holds q j → t.Holds q i := sublist erase_sublist h
  refine hsub.imp_of_mem ?_
  intro i j hi hj hij hhold
  have hi : i ≠ k := ((t.lru_nodup.mem_erase_iff).mp hi).1
  have hj : j ≠ k := ((t.lru_nodup.mem_erase_iff).mp hj).1
  exact (hold i hi).mpr (hij ((hold j hj).mp hhold))

theorem Front.remove : (t.remove k).Front q := by
  have hsub : (t.lru.erase k).Pairwise fun i j => t.Holds q j → t.Holds q i := sublist erase_sublist h
  refine imp_of_mem ?_ hsub
  rintro i j hi hj hij ⟨b, hb, hq⟩
  have hj : j ≠ k := ((t.lru_nodup.mem_erase_iff).mp hj).1
  have hi : i ≠ k := ((t.lru_nodup.mem_erase_iff).mp hi).1
  rw [find_remove, if_neg hj] at hb
  obtain ⟨c, hc, hqc⟩ := hij ⟨b, hb, hq⟩
  exact ⟨c, by rw [find_remove, if_neg hi]; exact hc, hqc⟩

end

/-! ## Trimming -/

theorem Front.of_last {q : α → Prop} {keys : List κ} {j : κ} (h : t.Front q) (hl : t.lru = keys ++ [j])
    (hlast : t.Holds q j) (hk : k ∈ t.lru) : t.Holds q k := by
  unfold Front at h
  rw [hl] at hk h
  rcases mem_append.mp hk with hk | hk
  · exact (pairwise_append.mp h).2.2 k hk j (by simp) hlast
  · rw [mem_singleton.mp hk]
    exact hlast

theorem find_trim {p : α → Bool} (h : t.Front fun a => p a = true) : (t.trim p).find k = (t.find k).filter p := by
  suffices H : ∀ (keys : List κ) (t : LruTable κ α), t.lru = keys.reverse →
      (t.Front fun a => p a = true) → (removeUntil p keys t).find k = (t.find k).filter p from
    H _ t (reverse_reverse _).symm h
  intro keys
  induction keys with
  | nil =>
    intro t hl _
    have : t.find k = none := by
      cases hf : t.find k with
      | none => rfl
      | some a =>
        have := mem_lru.mpr ⟨a, hf⟩
        rw [hl] at this
        cases this
    unfold removeUntil
    rw [this]
    rfl
  | cons j keys ih =>
    intro t hl hfront
    rw [reverse_cons] at hl
    unfold removeUntil
    by_cases hj : (t.find j).any p
    · -- the last record has the property, so all of them have
      rw [if_pos hj]
      cases hf : t.find k with
      | none => rfl
      | some a =>
        obtain ⟨b, hb, hp⟩ := (Option.any_eq_true _ _).mp hj
        obtain ⟨c, hc, hp⟩ := hfront.of_last hl ⟨b, hb, hp⟩ (mem_lru.mpr ⟨a, hf⟩)
        rw [hf] at hc
        cases hc
        rw [Option.filter_some, if_pos hp]
    · rw [if_neg hj]
      have hnd : (keys.reverse ++ [j]).Nodup := hl ▸ t.lru_nodup
      have hlru : (t.remove j).lru = keys.reverse := by
        rw [lru_remove, hl, erase_append_right _ ?_]
        · simp
        · intro hm
          exact (nodup_append.mp hnd).2.2 j hm j (by simp) rfl
      rw [ih _ hlru hfront.remove, find_remove]
      by_cases hk : k = j
      · rw [if_pos hk, hk]
        cases hf : t.find j with
        | none => rfl
        | some a =>
          rw [hf] at hj
          rw [Option.filter_some, if_neg (show ¬ p a = true from hj)]
          rfl
      · rw [if_neg hk]

end

end LruTable
