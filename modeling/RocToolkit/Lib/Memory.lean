import Mathlib.Data.List.Basic

/-!
# RocToolkit.Lib.Memory

Cells one after another, read and written in blocks. `read_write_self` and `read_write_of_disjoint` say all
that a program can see of a write; `read_append` takes a block apart, so that the contents of a region are
known from the writes into its parts.
-/

namespace Memory

open List

variable {α : Type}

/-- The `n` cells from `off` on. -/
def read (mem : List α) (off n : Nat) : List α := (mem.drop off).take n

/-- The cells from `off` on are overwritten with `cells`. -/
def write (mem : List α) (off : Nat) (cells : List α) : List α :=
  mem.take off ++ (cells ++ mem.drop (off + cells.length))

variable {mem cells : List α} {off o n : Nat} {off : Nat}

theorem length_write (mem cells : List α) (h : off + cells.length ≤ mem.length) :
    (write mem off cells).length = mem.length := by
  simp only [write, length_append, length_take, length_drop]; omega

theorem read_write_self (mem cells : List α) (h : off + cells.length ≤ mem.length) :
    read (write mem off cells) off cells.length = cells := by
  have hoff : (mem.take off).length = off := by rw [length_take]; omega
  rw [read, write, drop_append_of_le_length (by omega)]
  simp

theorem read_write_of_disjoint (mem cells : List α) {o n : Nat} (h : off + cells.length ≤ mem.length)
    (hd : o + n ≤ off ∨ off + cells.length ≤ o) : read (write mem off cells) o n = read mem o n := by
  have hoff : (mem.take off).length = off := by rw [length_take]; omega
  rcases hd with hd | hd
  · rw [read, write, drop_append_of_le_length (by omega), take_append_of_le_length
      (by rw [length_drop]; omega), drop_take, take_take, Nat.min_eq_left (by omega), read]
  · obtain ⟨d, rfl⟩ : ∃ d, o = off + (cells.length + d) := ⟨o - off - cells.length, by omega⟩
    rw [read, write, ← drop_drop, drop_append_of_le_length (by omega), ← drop_drop]
    simp [read, Nat.add_assoc]

theorem read_append (mem : List α) (off a b : Nat) : read mem off (a + b) = read mem off a ++ read mem (off + a) b := by
  rw [read, read, read, ← drop_drop, take_add]

theorem take_read (h : n ≤ o) : (read mem off o).take n = read mem off n := by
  rw [read, take_take, Nat.min_eq_left h, read]

end Memory
