import Mathlib.Data.List.Nodup
import Mathlib.Logic.Function.Basic

/-!
# RocToolkit.Lib.LinkedQueue

A linked list that many threads append to and one takes from. A push clears the link of its node, exchanges the
tail and then links the node to the one that was the tail before. In between the list is cut: `WF` says which nodes
follow each other, and that a missing link is a push in progress.
-/

open Function (update update_of_ne update_self)

/-- `b` comes right after `a`. -/
def List.Follows {κ : Type} : List κ → κ → κ → Prop
  | x :: y :: l, a, b => (a = x ∧ b = y) ∨ List.Follows (y :: l) a b
  | _, _, _ => False

namespace List.Follows

open List

variable {κ : Type} {l : List κ} {a b c x : κ}

theorem mem_left : ∀ {l : List κ}, l.Follows a b → a ∈ l
  | _ :: _ :: _, .inl ⟨h, _⟩ => h ▸ mem_cons_self
  | _ :: _ :: _, .inr h => mem_cons_of_mem _ (mem_left h)

theorem mem_tail : ∀ {l : List κ} {x : κ}, (x :: l).Follows a b → b ∈ l
  | _ :: _, _, .inl ⟨_, h⟩ => h ▸ mem_cons_self
  | _ :: _ :: _, _, .inr h => mem_cons_of_mem _ (mem_tail h)

theorem of_cons : ∀ {l : List κ}, l.Follows a b → (x :: l).Follows a b
  | _ :: _ :: _, h => .inr h

theorem tail_of_ne : ∀ {l : List κ}, (x :: l).Follows a b → a ≠ x → l.Follows a b
  | _ :: _, .inl ⟨h, _⟩, hne => absurd h hne
  | _ :: _ :: _, .inr h, _ => h

theorem append_singleton : ∀ {l : List κ}, l.Follows a b → (l ++ [x]).Follows a b
  | _ :: _ :: _, .inl h => .inl h
  | _ :: _ :: _, .inr h => .inr (append_singleton h)

theorem getLast_append : ∀ {l : List κ}, a ∈ l.getLast? → (l ++ [x]).Follows a x
  | [_], h => .inl ⟨(Option.some.inj h).symm, rfl⟩
  | _ :: y :: l, h => .inr (getLast_append (l := y :: l) (by simpa [List.getLast?_cons_cons] using h))

theorem of_append_singleton : ∀ {l : List κ}, (l ++ [x]).Follows a b → l.Follows a b ∨ (a ∈ l.getLast? ∧ b = x)
  | [_], .inl ⟨ha, hb⟩ => .inr ⟨ha ▸ rfl, hb⟩
  | _ :: _ :: _, .inl h => .inl (.inl h)
  | _ :: y :: l, .inr h => by
    rcases of_append_singleton (l := y :: l) h with h | ⟨h, hx⟩
    · exact .inl (.inr h)
    · exact .inr ⟨by simpa [List.getLast?_cons_cons] using h, hx⟩

theorem right_unique : ∀ {l : List κ}, l.Nodup → l.Follows a b → l.Follows a c → b = c
  | _ :: _ :: _, _, .inl ⟨_, hb⟩, .inl ⟨_, hc⟩ => hb.trans hc.symm
  | _ :: _ :: _, hl, .inl ⟨ha, _⟩, .inr h => absurd (ha ▸ h.mem_left) (nodup_cons.mp hl).1
  | _ :: _ :: _, hl, .inr h, .inl ⟨ha, _⟩ => absurd (ha ▸ h.mem_left) (nodup_cons.mp hl).1
  | _ :: _ :: _, hl, .inr h, .inr h' => right_unique (nodup_cons.mp hl).2 h h'

theorem not_getLast : ∀ {l : List κ}, l.Nodup → l.Follows a b → a ∉ l.getLast?
  | x :: y :: l, hl, .inl ⟨ha, _⟩, h => by
    subst ha
    rw [List.getLast?_cons_cons] at h
    exact (nodup_cons.mp hl).1 (mem_of_getLast? h)
  | x :: y :: l, hl, .inr hf, h => by
    rw [List.getLast?_cons_cons] at h
    exact not_getLast (nodup_cons.mp hl).2 hf h

end List.Follows

namespace LinkedQueue

inductive PushPc (κ : Type) where
  | clear
  | exchange
  | link (prev : κ)
deriving DecidableEq, Repr

variable {κ τ : Type}

/-- The nodes from the head to the tail are `head :: rest`; `push` tells the pushes in progress. -/
structure WF (next : κ → Option κ) (head tail : κ) (push : τ → Option (κ × PushPc κ)) (rest : List κ) : Prop where
  nodup : (head :: rest).Nodup
  last : (head :: rest).getLast? = some tail
  next_tail : next tail = none
  linked : ∀ a b, (head :: rest).Follows a b → next a = some b ∨ (next a = none ∧ ∃ t, push t = some (b, .link a))
  outside : ∀ t x pc, push t = some (x, pc) → pc = .clear ∨ pc = .exchange → x ∉ head :: rest
  cleared : ∀ t x, push t = some (x, .exchange) → next x = none
  linking : ∀ t x prev, push t = some (x, .link prev) → (head :: rest).Follows prev x ∧ next prev = none
  distinct : ∀ t u x pc pc', push t = some (x, pc) → push u = some (x, pc') → t = u

theorem update_eq_some {α β : Type} [DecidableEq α] {f : α → Option β} {t u : α} {v : Option β} {z : β} :
    update f t v u = some z ↔ (u = t ∧ v = some z) ∨ (u ≠ t ∧ f u = some z) := by
  by_cases h : u = t
  · subst h
    simp
  · simp [h]

namespace WF

variable {next : κ → Option κ} {head tail : κ} {push : τ → Option (κ × PushPc κ)} {rest : List κ} {t : τ} {x : κ}

section
variable (h : WF next head tail push rest)
include h

theorem tail_mem : tail ∈ head :: rest := List.mem_of_getLast? h.last

theorem next_eq (hidle : ∀ t, push t = none) {a b : κ} (hab : (head :: rest).Follows a b) : next a = some b := by
  rcases h.linked a b hab with hnext | ⟨-, t, ht⟩
  · exact hnext
  · rw [hidle t] at ht
    cases ht

theorem rest_eq_cons {b : κ} (hb : next head = some b) : ∃ rest', rest = b :: rest' := by
  cases rest with
  | nil =>
    have hlast : head = tail := Option.some.inj h.last
    rw [hlast, h.next_tail] at hb
    cases hb
  | cons c rest =>
    rcases h.linked head c (.inl ⟨rfl, rfl⟩) with hc | ⟨hc, -⟩
    · rw [hb, Option.some.injEq] at hc
      exact ⟨rest, hc ▸ rfl⟩
    · rw [hb] at hc
      cases hc

theorem rest_eq_nil (ht : tail = head) : rest = [] := by
  cases rest with
  | nil => rfl
  | cons b rest =>
    have hlast := h.last
    rw [List.getLast?_cons_cons, ht] at hlast
    exact absurd (List.mem_of_getLast? hlast) (List.nodup_cons.mp h.nodup).1

end

theorem advance {b : κ} (h : WF next head tail push (b :: rest)) (hb : next head = some b) :
    WF next b tail push rest where
  nodup := (List.nodup_cons.mp h.nodup).2
  last := by simpa [List.getLast?_cons_cons] using h.last
  next_tail := h.next_tail
  linked a c hac := h.linked a c hac.of_cons
  outside u y pc hy hpc hmem := h.outside u y pc hy hpc (List.mem_cons_of_mem _ hmem)
  cleared := h.cleared
  linking u y prev hy := by
    obtain ⟨hf, hnone⟩ := h.linking u y prev hy
    have hne : prev ≠ head := fun e => by rw [e, hb] at hnone; cases hnone
    exact ⟨hf.tail_of_ne hne, hnone⟩
  distinct := h.distinct

section
variable [DecidableEq τ]

theorem begin_push (h : WF next head tail push rest) (ht : push t = none) (hx : x ∉ head :: rest)
    (hfree : ∀ u pc, push u ≠ some (x, pc)) :
    WF next head tail (update push t (some (x, .clear))) rest where
  nodup := h.nodup
  last := h.last
  next_tail := h.next_tail
  linked a b hab := by
    refine (h.linked a b hab).imp_right fun ⟨hnone, u, hu⟩ => ⟨hnone, u, ?_⟩
    have hne : u ≠ t := fun e => by rw [e, ht] at hu; cases hu
    rw [update_of_ne hne, hu]
  outside u y pc hy hpc := by
    rcases update_eq_some.mp hy with ⟨-, hy⟩ | ⟨-, hy⟩
    · cases hy
      exact hx
    · exact h.outside u y pc hy hpc
  cleared u y hy := by
    rcases update_eq_some.mp hy with ⟨-, hy⟩ | ⟨-, hy⟩
    · cases hy
    · exact h.cleared u y hy
  linking u y prev hy := by
    rcases update_eq_some.mp hy with ⟨-, hy⟩ | ⟨-, hy⟩
    · cases hy
    · exact h.linking u y prev hy
  distinct u v y pc pc' hu hv := by
    rcases update_eq_some.mp hu with ⟨hut, hu'⟩ | ⟨-, hu'⟩ <;> rcases update_eq_some.mp hv with ⟨hvt, hv'⟩ | ⟨-, hv'⟩
    · exact hut.trans hvt.symm
    · cases hu'
      exact absurd hv' (hfree v pc')
    · cases hv'
      exact absurd hu' (hfree u pc)
    · exact h.distinct u v y pc pc' hu' hv'

theorem distinct_update (h : WF next head tail push rest) {pc pc' : PushPc κ} (ht : push t = some (x, pc)) :
    ∀ u v y pc1 pc2, update push t (some (x, pc')) u = some (y, pc1) →
      update push t (some (x, pc')) v = some (y, pc2) → u = v := by
  intro u v y pc1 pc2 hu hv
  rcases update_eq_some.mp hu with ⟨hut, hu'⟩ | ⟨-, hu'⟩ <;> rcases update_eq_some.mp hv with ⟨hvt, hv'⟩ | ⟨-, hv'⟩
  · exact hut.trans hvt.symm
  · cases hu'
    exact hut.trans (h.distinct t v x pc pc2 ht hv')
  · cases hv'
    exact (h.distinct u t x pc1 pc hu' ht).trans hvt.symm
  · exact h.distinct u v y pc1 pc2 hu' hv'

variable [DecidableEq κ]

theorem clear (h : WF next head tail push rest) (ht : push t = some (x, .clear)) :
    WF (update next x none) head tail (update push t (some (x, .exchange))) rest := by
  have hx : x ∉ head :: rest := h.outside t x .clear ht (.inl rfl)
  have hin : ∀ a ∈ head :: rest, update next x none a = next a := fun a ha =>
    update_of_ne (fun e : a = x => hx (e ▸ ha)) _ _
  exact {
    nodup := h.nodup
    last := h.last
    next_tail := (hin tail h.tail_mem).trans h.next_tail
    linked := fun a b hab => by
      rw [hin a hab.mem_left]
      refine (h.linked a b hab).imp_right fun ⟨hnone, u, hu⟩ => ⟨hnone, u, ?_⟩
      have hne : u ≠ t := fun e => by rw [e, ht] at hu; cases hu
      rw [update_of_ne hne, hu]
    outside := fun u y pc hy hpc => by
      rcases update_eq_some.mp hy with ⟨-, hy⟩ | ⟨-, hy⟩
      · cases hy
        exact hx
      · exact h.outside u y pc hy hpc
    cleared := fun u y hy => by
      rcases update_eq_some.mp hy with ⟨-, hy⟩ | ⟨-, hy⟩
      · cases hy
        exact update_self ..
      · by_cases hyx : y = x
        · rw [hyx]
          exact update_self ..
        · rw [update_of_ne hyx]
          exact h.cleared u y hy
    linking := fun u y prev hy => by
      rcases update_eq_some.mp hy with ⟨-, hy⟩ | ⟨-, hy⟩
      · cases hy
      · obtain ⟨hf, hnone⟩ := h.linking u y prev hy
        exact ⟨hf, (hin prev hf.mem_left).trans hnone⟩
    distinct := h.distinct_update ht }

omit [DecidableEq κ] in
theorem exchange (h : WF next head tail push rest) (ht : push t = some (x, .exchange)) :
    WF next head x (update push t (some (x, .link tail))) (rest ++ [x]) := by
  have hx : x ∉ head :: rest := h.outside t x .exchange ht (.inr rfl)
  have hother : ∀ {u y pc}, u ≠ t → push u = some (y, pc) → y ≠ x := fun hu hy e =>
    hu (h.distinct _ t x _ _ (e ▸ hy) ht)
  exact {
    nodup := by
      rw [← List.cons_append]
      exact List.nodup_append.mpr ⟨h.nodup, List.nodup_singleton x, fun a ha b hb e => by
        rw [List.mem_singleton] at hb
        exact hx (hb ▸ e ▸ ha)⟩
    last := by rw [← List.cons_append, List.getLast?_concat]
    next_tail := h.cleared t x ht
    linked := fun a b hab => by
      rw [← List.cons_append] at hab
      rcases hab.of_append_singleton with hab | ⟨ha, rfl⟩
      · refine (h.linked a b hab).imp_right fun ⟨hnone, u, hu⟩ => ⟨hnone, u, ?_⟩
        have hne : u ≠ t := fun e => by rw [e, ht] at hu; cases hu
        rw [update_of_ne hne, hu]
      · obtain rfl : a = tail := Option.some.inj (ha.symm.trans h.last)
        exact .inr ⟨h.next_tail, t, update_self ..⟩
    outside := fun u y pc hy hpc => by
      rcases update_eq_some.mp hy with ⟨-, hy⟩ | ⟨hu, hy⟩
      · cases hy
        rcases hpc with hpc | hpc <;> cases hpc
      · rw [← List.cons_append, List.mem_append, List.mem_singleton]
        rintro (hmem | hyx)
        · exact h.outside u y pc hy hpc hmem
        · exact hother hu hy hyx
    cleared := fun u y hy => by
      rcases update_eq_some.mp hy with ⟨-, hy⟩ | ⟨-, hy⟩
      · cases hy
      · exact h.cleared u y hy
    linking := fun u y prev hy => by
      rw [← List.cons_append]
      rcases update_eq_some.mp hy with ⟨-, hy⟩ | ⟨-, hy⟩
      · cases hy
        exact ⟨.getLast_append h.last, h.next_tail⟩
      · obtain ⟨hf, hnone⟩ := h.linking u y prev hy
        exact ⟨hf.append_singleton, hnone⟩
    distinct := h.distinct_update ht }

theorem link {prev : κ} (h : WF next head tail push rest) (ht : push t = some (x, .link prev)) :
    WF (update next prev (some x)) head tail (update push t none) rest := by
  obtain ⟨hf, hnone⟩ := h.linking t x prev ht
  have hkeep : ∀ {u z}, update push t none u = some z → u ≠ t ∧ push u = some z := fun hu =>
    (update_eq_some.mp hu).resolve_left (by simp)
  have hnext : ∀ {a}, a ≠ prev → update next prev (some x) a = next a := fun ha => update_of_ne ha _ _
  exact {
    nodup := h.nodup
    last := h.last
    next_tail := (hnext fun e => hf.not_getLast h.nodup (e ▸ h.last)).trans h.next_tail
    linked := fun a b hab => by
      by_cases ha : a = prev
      · subst ha
        rw [update_self, hf.right_unique h.nodup hab]
        exact .inl rfl
      · rw [hnext ha]
        refine (h.linked a b hab).imp_right fun ⟨hnone, u, hu⟩ => ⟨hnone, u, ?_⟩
        have hne : u ≠ t := fun e => by rw [e, ht] at hu; cases hu; exact ha rfl
        rw [update_of_ne hne, hu]
    outside := fun u y pc hy hpc => h.outside u y pc (hkeep hy).2 hpc
    cleared := fun u y hy => by
      have hy := (hkeep hy).2
      have hyp : y ≠ prev := fun e => h.outside u y .exchange hy (.inr rfl) (e ▸ hf.mem_left)
      exact (hnext hyp).trans (h.cleared u y hy)
    linking := fun u y p hy => by
      obtain ⟨hu, hy⟩ := hkeep hy
      obtain ⟨hf', hnone'⟩ := h.linking u y p hy
      have hp : p ≠ prev := fun e => by
        subst e
        obtain rfl := hf.right_unique h.nodup hf'
        exact hu (h.distinct u t x _ _ hy ht)
      exact ⟨hf', (hnext hp).trans hnone'⟩
    distinct := fun u v y pc pc' hu hv => h.distinct u v y pc pc' (hkeep hu).2 (hkeep hv).2 }

end

end WF

end LinkedQueue
