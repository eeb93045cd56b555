import RocToolkit.Lib.Codec

/-!
# RocToolkit.Core.Slice

`core::Slice<uint8_t>`: a window of a byte buffer. The window lies inside its buffer by
construction (`fits`), so a slice that points elsewhere cannot be built; what can go wrong is asking
for a window or an element outside it, and both are faults of the model (`subslice` panics as the
source does, `read` through a raw pointer is `outOfBounds`).
-/

namespace Roc

open List

inductive Fault where
  /-- `roc_panic` -/
  | panic (msg : String)
  /-- a raw access outside the object it belongs to -/
  | outOfBounds
  /-- a null pointer is dereferenced -/
  | nullPointer
  /-- an object that no longer exists is accessed -/
  | dangling
  /-- a fault inside a function that the caller was given -/
  | callback (inner : Fault)
  /-- the rounds allowed to a loop of the model are used up -/
  | outOfFuel
deriving DecidableEq, Repr

section
variable {α β : Type}

@[simp] theorem ok_bind (a : α) (f : α → Except Fault β) : (Except.ok a >>= f) = f a := rfl

@[simp] theorem error_bind (e : Fault) (f : α → Except Fault β) : (Except.error e >>= f) = .error e := rfl

@[simp] theorem pure_eq_ok (a : α) : (pure a : Except Fault α) = .ok a := rfl

@[simp] theorem throw_eq_error (e : Fault) : (throw e : Except Fault α) = .error e := rfl

variable {x : Except Fault α}

theorem bind_eq_ok {f : α → Except Fault β} {b : β} : (x >>= f) = .ok b ↔ ∃ a, x = .ok a ∧ f a = .ok b := by
  cases x with
  | error e => simp
  | ok a => simp

theorem map_eq_ok {f : α → β} {b : β} (h : f <$> x = .ok b) : ∃ a, x = .ok a ∧ f a = b := by
  cases x with
  | error e => cases h
  | ok a => exact ⟨a, rfl, Except.ok.inj h⟩

theorem toOption_eq_some {a : α} (h : x.toOption = some a) : x = .ok a := by
  cases x with
  | error e => cases h
  | ok b => cases h; rfl

end

namespace Core

structure Slice where
  buf : List UInt8
  off : Nat
  size : Nat
  fits : off + size ≤ buf.length
deriving DecidableEq, Repr

namespace Slice

def ofBuffer (buf : List UInt8) : Slice := ⟨buf, 0, buf.length, by omega⟩

@[simp] theorem ofBuffer_buf (buf : List UInt8) : (ofBuffer buf).buf = buf := rfl
@[simp] theorem ofBuffer_off (buf : List UInt8) : (ofBuffer buf).off = 0 := rfl
@[simp] theorem ofBuffer_size (buf : List UInt8) : (ofBuffer buf).size = buf.length := rfl

def bytes (s : Slice) : List UInt8 := (s.buf.drop s.off).take s.size

@[simp] theorem bytes_ofBuffer (buf : List UInt8) : (ofBuffer buf).bytes = buf := by
  simp [bytes, ofBuffer]

@[simp] theorem length_bytes (s : Slice) : s.bytes.length = s.size := by
  have := s.fits
  rw [bytes, length_take, length_drop]
  omega

/-- The part `[lo, hi)` of a slice, relative to its beginning. -/
def subslice (s : Slice) (lo hi : Nat) : Except Fault Slice :=
  if hle : lo ≤ hi then
    if hhi : hi ≤ s.size then
      .ok ⟨s.buf, s.off + lo, hi - lo, by have := s.fits; omega⟩
    else .error (.panic "slice: out of bounds")
  else .error (.panic "slice: invalid range")

/-- The record that starts at the `i`-th byte. -/
def peek {α : Type} (s : Slice) (c : Codec α) (i : Nat) : α := c.decode (s.buf.drop (s.off + i))

/-- Read a record through a pointer to the `i`-th byte of the slice. -/
def read {α : Type} (s : Slice) (c : Codec α) (i : Nat) : Except Fault α :=
  if i + c.width ≤ s.size then .ok (s.peek c i) else .error .outOfBounds

/-- `n` bytes copied from the `i`-th byte on. -/
def copy (s : Slice) (i n : Nat) : Except Fault (List UInt8) :=
  if i + n ≤ s.size then .ok ((s.buf.drop (s.off + i)).take n)
  else .error .outOfBounds

section
variable {s : Slice} {a b : Nat} (hab : a ≤ b) (hb : b ≤ s.size)
include hab hb

theorem subslice_ok : ∃ t, s.subslice a b = .ok t ∧ t.buf = s.buf ∧ t.off = s.off + a ∧ t.size = b - a := by
  simp [subslice, hab, hb]

theorem subslice_eq : s.subslice a b = .ok ⟨s.buf, s.off + a, b - a, by have := s.fits; omega⟩ := by
  rw [subslice, dif_pos hab, dif_pos hb]

end

variable {s : Slice}

theorem read_ok (h : i + c.width ≤ s.size) : s.read c i = .ok (s.peek c i) := by
  simp [read, h]

theorem copy_ok {n : Nat} (h : i + n ≤ s.size) : s.copy i n = .ok ((s.buf.drop (s.off + i)).take n) := by
  simp [copy, h]

theorem peek_eq_bytes (h : i + c.width ≤ s.size) : s.peek c i = c.decode (s.bytes.drop i) := by
  have htake : (s.bytes.drop i).take c.width = (s.buf.drop (s.off + i)).take c.width := by
    rw [bytes, drop_take, drop_drop, take_take, Nat.min_eq_left (by omega)]
  rw [peek, ← c.decode_take, ← htake, c.decode_take]

theorem peek_eq_peek {t : Slice} (c : Codec α) {j : Nat} (hb : s.buf = t.buf)
    (ho : s.off + i = t.off + j) : s.peek c i = t.peek c j := by
  rw [peek, peek, hb, ho]

/-- The bytes `e` stand at the `i`-th byte of the slice. -/
def Has (s : Slice) (i : Nat) (e : List UInt8) : Prop := ∃ rest, s.buf.drop (s.off + i) = e ++ rest

section
variable {s : Slice} {i : Nat} {e f : List UInt8} (h : s.Has i (e ++ f))
include h

theorem Has.left : s.Has i e := by
  obtain ⟨rest, hr⟩ := h
  exact ⟨f ++ rest, by rw [hr, append_assoc]⟩

theorem Has.right : s.Has (i + e.length) f := by
  obtain ⟨rest, hr⟩ := h
  refine ⟨rest, ?_⟩
  rw [← Nat.add_assoc, ← drop_drop, hr, append_assoc, drop_left]

end

theorem Has.peek {a : α} (h : s.Has i (c.encode a)) : s.peek c i = a := by
  obtain ⟨rest, hr⟩ := h
  rw [Slice.peek, hr, c.decode_encode]

theorem Has.peekAll {as : List α} (h : s.Has i (c.encodeAll as)) :
    (List.range as.length).map (fun j => s.peek c (i + j * c.width)) = as := by
  obtain ⟨rest, hr⟩ := h
  refine Eq.trans (map_congr_left fun j _ => ?_) (c.map_decode_encodeAll as rest)
  rw [Slice.peek, ← Nat.add_assoc, ← drop_drop, hr]

theorem has_ofBuffer (l r : List UInt8) : (ofBuffer (l ++ r)).Has l.length r := ⟨[], by simp [ofBuffer]⟩

end Slice
end Core
end Roc
