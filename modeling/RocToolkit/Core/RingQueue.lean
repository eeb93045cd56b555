import Mathlib.Data.Nat.ModEq
import RocToolkit.Core.Slice

/-!
# RocToolkit.Core.RingQueue

`core::RingQueue`. A cell of the buffer holds an element from its construction to its destruction. The queue is a
deque as long as it has fewer elements than its length and none is taken from the back: with `buff_len_` elements
the two indices are equal, as in an empty queue, and `pop_back` destroys the cell behind the last element.
-/

namespace Roc.Core

open List Function Nat

structure RingQueue (α : Type) where
  buff : Nat → Option α
  buffLen : Nat
  begin_ : Nat
  end_ : Nat

namespace RingQueue

variable {α : Type}

def new (maxLen : Nat) : RingQueue α := ⟨fun _ => none, maxLen, 0, 0⟩

section
variable (q : RingQueue α)

def capacity : Nat := q.buffLen

def size : Nat := (q.end_ + q.buffLen - q.begin_) % q.buffLen

def isEmpty : Bool := q.begin_ = q.end_

def isFull : Bool := q.size = q.capacity

def after (i : Nat) : Nat := (i + 1) % q.buffLen

def before (i : Nat) : Nat := (i + q.buffLen - 1) % q.buffLen

def front : Except Fault (Option α) :=
  if q.isEmpty then .error (.panic "ring queue: front() called on empty buffer") else .ok (q.buff q.begin_)

def back : Except Fault (Option α) :=
  if q.isEmpty then .error (.panic "ring queue: back() called on empty buffer") else .ok (q.buff (q.before q.end_))

def pushFront (x : α) : Except Fault (RingQueue α) :=
  if q.isFull then .error (.panic "ring queue: buffer overflow")
  else .ok { q with begin_ := q.before q.begin_, buff := update q.buff (q.before q.begin_) (some x) }

def pushBack (x : α) : Except Fault (RingQueue α) :=
  if q.isFull then .error (.panic "ring queue: buffer overflow")
  else .ok { q with end_ := q.after q.end_, buff := update q.buff q.end_ (some x) }

def popFront : Except Fault (RingQueue α × Option α) :=
  if q.isEmpty then .error (.panic "ring queue: pop_front() called on empty buffer")
  else .ok ({ q with begin_ := q.after q.begin_, buff := update q.buff q.begin_ none }, q.buff q.begin_)

def popBack : Except Fault (RingQueue α × Option α) :=
  if q.isEmpty then .error (.panic "ring queue: pop_back() called on empty buffer")
  else .ok ({ q with end_ := q.before q.end_, buff := update q.buff q.end_ none }, q.buff q.end_)

end

/-! ## Deques -/

inductive Op (α : Type) where
  | pushFront (x : α)
  | pushBack (x : α)
  | popFront
  | popBack

def Op.apply (q : RingQueue α) : Op α → Except Fault (RingQueue α × List (Option α))
  | .pushFront x => (q.pushFront x).map fun q => (q, [])
  | .pushBack x => (q.pushBack x).map fun q => (q, [])
  | .popFront => q.popFront.map fun r => (r.1, [r.2])
  | .popBack => q.popBack.map fun r => (r.1, [r.2])

def Op.onDeque (cap : Nat) (l : List α) : Op α → Option (List α × List α)
  | .pushFront x => if l.length < cap then some (x :: l, []) else none
  | .pushBack x => if l.length < cap then some (l ++ [x], []) else none
  | .popFront => l.head?.map fun x => (l.tail, [x])
  | .popBack => l.getLast?.map fun x => (l.dropLast, [x])

structure Agrees (cap : Nat) (q : RingQueue α) (l : List α) : Prop where
  capacity : q.capacity = cap
  size : q.size = l.length
  isEmpty : q.isEmpty = l.isEmpty
  isFull : q.isFull = decide (l.length = cap)
  front : ∀ x, l.head? = some x → q.front = .ok (some x)
  back : ∀ x, l.getLast? = some x → q.back = .ok (some x)

/-- The queue agrees with the deque before and after every call, as far as the deque permits the calls. -/
def Behaves (cap : Nat) : List (Op α) → RingQueue α → List α → Prop
  | [], q, l => Agrees cap q l
  | op :: ops, q, l => Agrees cap q l ∧ ∀ l' removed, op.onDeque cap l = some (l', removed) →
      ∃ q', op.apply q = .ok (q', removed.map some) ∧ Behaves cap ops q' l'

def Spares (cap : Nat) : List (Op α) → List α → Prop
  | [], l => l.length < cap
  | op :: ops, l => l.length < cap ∧ ∀ l' removed, op.onDeque cap l = some (l', removed) →
      op ≠ .popBack ∧ Spares cap ops l'

/-! ## The cells -/

theorem slot_ne {b i j n : Nat} (hi : i < n) (hj : j < n) (hne : i ≠ j) : (b + i) % n ≠ (b + j) % n :=
  fun h => hne ((Nat.ModEq.add_left_cancel' b h).eq_of_lt_of_lt hi hj)

theorem slot_ne_begin {b i n : Nat} (hi : i + 1 < n) : (b + (i + 1)) % n ≠ b % n :=
  slot_ne (j := 0) hi (by omega) nofun

/-- The elements lie in the cells from the `b`-th on, counted round and round, and the other cells are empty. -/
structure Holds (cap b : Nat) (q : RingQueue α) (l : List α) : Prop where
  buffLen : q.buffLen = cap
  begin_eq : q.begin_ = b % cap
  end_eq : q.end_ = (b + l.length) % cap
  room : l.length < cap
  cells : ∀ i < cap, q.buff ((b + i) % cap) = l[i]?

section
variable {cap b : Nat} {q q' : RingQueue α} {l l' removed : List α}

section
variable (h : Holds cap b q l)
include h

theorem Holds.size : q.size = l.length := by
  have hpos := zero_lt_of_lt h.room
  have hlt := mod_lt b hpos
  -- from the beginning, the size leads to the end
  have hsum : b % cap + ((b + l.length) % cap + cap - b % cap) = (b + l.length) % cap + cap := by omega
  have hmod : b % cap + ((b + l.length) % cap + cap - b % cap) ≡ b % cap + l.length [MOD cap] := by
    rw [hsum, Nat.ModEq, add_mod_right, mod_mod, mod_add_mod]
  rw [RingQueue.size, h.buffLen, h.begin_eq, h.end_eq]
  exact Eq.trans (hmod.add_left_cancel' _) (mod_eq_of_lt h.room)

theorem Holds.isEmpty : q.isEmpty = l.isEmpty := by
  rw [RingQueue.isEmpty, h.begin_eq, h.end_eq]
  cases l with
  | nil => exact decide_eq_true rfl
  | cons x l => exact decide_eq_false (slot_ne_begin h.room).symm

theorem Holds.isFull : q.isFull = false := by
  rw [RingQueue.isFull, h.size, capacity, h.buffLen, decide_eq_false_iff_not]
  exact Nat.ne_of_lt h.room

theorem Holds.before_mod (i : Nat) : q.before (i % cap) = (i + (cap - 1)) % cap := by
  rw [before, h.buffLen, Nat.add_sub_assoc (Nat.zero_lt_of_lt h.room), Nat.mod_add_mod]

theorem Holds.front_cell : q.buff q.begin_ = l.head? := by
  rw [h.begin_eq, head?_eq_getElem?]
  exact h.cells 0 (zero_lt_of_lt h.room)

theorem Holds.back_cell (hl : l ≠ []) : q.buff (q.before q.end_) = l.getLast? := by
  have hpos := length_pos_iff.mpr hl
  have hroom := h.room
  rw [h.end_eq, h.before_mod, show b + l.length + (cap - 1) = b + (l.length - 1) + cap by omega, add_mod_right,
    h.cells _ (by omega), getLast?_eq_getElem?]

theorem Holds.agrees : Agrees cap q l := by
  have hfull : decide (l.length = cap) = false := decide_eq_false (Nat.ne_of_lt h.room)
  refine ⟨h.buffLen, h.size, h.isEmpty, h.isFull.trans hfull.symm, fun x hx => ?_, fun x hx => ?_⟩
  · rw [front, h.isEmpty, h.front_cell, hx]
    cases l with
    | nil => cases hx
    | cons => rfl
  · have hl : l ≠ [] := by
      rintro rfl
      cases hx
    rw [back, h.isEmpty, h.back_cell hl, hx, isEmpty_eq_false_iff.mpr hl]
    rfl

end

theorem Holds.pushFront (h : Holds cap b q l) (x : α) (hroom : l.length + 1 < cap) :
    ∃ q', q.pushFront x = .ok q' ∧ Holds cap (b + (cap - 1)) q' (x :: l) := by
  have hbegin := h.before_mod b
  rw [← h.begin_eq] at hbegin
  -- the old cells, counted from the new beginning
  have hold : ∀ i, (b + i) % cap = (b + (cap - 1) + (i + 1)) % cap := by
    intro i
    rw [show b + (cap - 1) + (i + 1) = b + i + cap by omega, add_mod_right]
  refine ⟨_, if_neg (by simp [h.isFull]), h.buffLen, hbegin, h.end_eq.trans (hold _), hroom, fun i hi => ?_⟩
  dsimp only
  rw [hbegin]
  cases i with
  | zero => exact update_self ..
  | succ j =>
    rw [update_of_ne (slot_ne_begin hi), ← hold, h.cells j (by omega), getElem?_cons_succ]

theorem Holds.pushBack (h : Holds cap b q l) (x : α) (hroom : l.length + 1 < cap) :
    ∃ q', q.pushBack x = .ok q' ∧ Holds cap b q' (l ++ [x]) := by
  refine ⟨_, if_neg (by simp [h.isFull]), h.buffLen, h.begin_eq, ?_, by simpa using hroom, fun i hi => ?_⟩
  · rw [after, h.buffLen, h.end_eq, mod_add_mod, length_append, length_singleton, add_assoc]
  · dsimp only
    rw [h.end_eq]
    by_cases hlast : i = l.length
    · rw [hlast, update_self, getElem?_concat_length]
    · rw [update_of_ne (slot_ne hi h.room hlast), h.cells i hi, getElem?_append]
      split
      · rfl
      · rw [getElem?_eq_none (by omega), getElem?_eq_none (by rw [length_singleton]; omega)]

theorem Holds.popFront {x : α} (h : Holds cap b q (x :: l)) :
    ∃ q', q.popFront = .ok (q', q.buff q.begin_) ∧ Holds cap (b + 1) q' l := by
  have hroom : l.length + 1 < cap := h.room
  have hold : ∀ i, b + 1 + i = b + (i + 1) := by omega
  refine ⟨_, if_neg (by simp [h.isEmpty]), h.buffLen, ?_, ?_, by omega, fun i hi => ?_⟩
  · rw [after, h.buffLen, h.begin_eq, mod_add_mod]
  · exact h.end_eq.trans (by rw [hold, length_cons])
  · dsimp only
    rw [h.begin_eq, hold]
    by_cases hlast : i + 1 = cap
    · rw [hlast, add_mod_right, update_self, getElem?_eq_none (by omega)]
    · rw [update_of_ne (slot_ne_begin (by omega)), h.cells (i + 1) (by omega), getElem?_cons_succ]

theorem Holds.step {op : Op α} (h : Holds cap b q l) (hop : op.onDeque cap l = some (l', removed))
    (hroom : l'.length < cap) (hback : op ≠ .popBack) :
    ∃ q' b', op.apply q = .ok (q', removed.map some) ∧ Holds cap b' q' l' := by
  cases op with
  | pushFront x =>
    obtain ⟨-, ⟨⟩⟩ := Option.ite_none_right_eq_some.mp hop
    obtain ⟨q', hq, h'⟩ := h.pushFront x hroom
    exact ⟨q', _, by rw [Op.apply, hq]; rfl, h'⟩
  | pushBack x =>
    obtain ⟨-, ⟨⟩⟩ := Option.ite_none_right_eq_some.mp hop
    obtain ⟨q', hq, h'⟩ := h.pushBack x (by simpa using hroom)
    exact ⟨q', b, by rw [Op.apply, hq]; rfl, h'⟩
  | popFront =>
    cases l with
    | nil => cases hop
    | cons x l =>
      cases hop
      obtain ⟨q', hq, h'⟩ := h.popFront
      exact ⟨q', _, by rw [Op.apply, hq, h.front_cell]; rfl, h'⟩
  | popBack => exact absurd rfl hback

theorem Holds.popBack (h : Holds cap b q l) (hop : Op.popBack.onDeque cap l = some (l', removed)) :
    Op.popBack.apply q ≠ .ok (q', removed.map some) := by
  have hempty : q.buff q.end_ = none := by
    rw [h.end_eq, h.cells l.length h.room, getElem?_eq_none (le_refl _)]
  obtain ⟨x, -, he⟩ := Option.map_eq_some_iff.mp hop
  cases he
  rw [Op.apply, RingQueue.popBack, hempty]
  split <;> simp [Except.map]

theorem Agrees.room (h : Agrees cap q l) (hcap : 0 < cap) : l.length < cap := by
  rw [← h.capacity] at hcap ⊢
  rw [← h.size]
  exact mod_lt _ hcap

theorem behaves_of_holds (hcap : 0 < cap) (ops : List (Op α)) :
    ∀ {b : Nat} {q : RingQueue α} {l : List α}, Holds cap b q l → (Behaves cap ops q l ↔ Spares cap ops l) := by
  induction ops with
  | nil => exact fun h => iff_of_true h.agrees h.room
  | cons op ops ih =>
    refine fun h => ⟨fun hb => ⟨h.room, fun l' removed hop => ?_⟩, fun hs => ⟨h.agrees, fun l' removed hop => ?_⟩⟩
    · obtain ⟨q', happly, hrest⟩ := hb.2 l' removed hop
      have hback : op ≠ .popBack := by
        rintro rfl
        exact h.popBack hop happly
      have hroom : l'.length < cap := by
        cases ops with
        | nil => exact hrest.room hcap
        | cons => exact hrest.1.room hcap
      obtain ⟨q'', b', happly', h'⟩ := h.step hop hroom hback
      cases happly.symm.trans happly'
      exact ⟨hback, (ih h').mp hrest⟩
    · obtain ⟨hback, hrest⟩ := hs.2 l' removed hop
      have hroom : l'.length < cap := by
        cases ops with
        | nil => exact hrest
        | cons => exact hrest.1
      obtain ⟨q', b', happly, h'⟩ := h.step hop hroom hback
      exact ⟨q', happly, (ih h').mpr hrest⟩

/-- The queue is the deque of its capacity through a sequence of calls exactly if the deque is never full in it and
nothing is removed from its back. -/
theorem behaves_iff (cap : Nat) (hcap : 0 < cap) (ops : List (Op α)) :
    Behaves cap ops (new cap) [] ↔ Spares cap ops [] :=
  behaves_of_holds hcap ops (b := 0) ⟨rfl, (zero_mod cap).symm, (zero_mod cap).symm, hcap, fun _ _ => rfl⟩

theorem behaves_iff_push : Behaves 2 [.pushBack 7] (new 2) [] := by
  refine (behaves_iff 2 (by decide) _).mpr ⟨by decide, ?_⟩
  rintro l removed ⟨⟩
  exact ⟨nofun, show 1 < 2 by decide⟩

/-- A queue of length 1 is empty again after the first element; and the last of two elements is removed without being
destroyed. -/
theorem full_isEmpty :
    ((new 1).pushBack 7).map (fun q => (q.size, q.isEmpty, q.isFull)) = .ok (0, true, false) ∧
      (do (← (← (new 3).pushBack 7).pushBack 8).popBack).map Prod.snd = .ok none := by
  decide

end

end RingQueue
end Roc.Core
