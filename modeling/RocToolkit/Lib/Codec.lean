import Mathlib.Data.Nat.Basic
import Mathlib.Tactic.Ring

/-!
# RocToolkit.Lib.Codec

Fixed-width byte codecs. A `Codec α` writes a value of `α` as `width` bytes and reads it back from
the front of any longer byte string; its laws are fields, so a codec cannot be built without
them. Records are assembled from `u8`, `be16`, `be32`, `be64` with `pair` and `iso`.
-/

namespace Codec

/-- The `k` low base-256 digits of `n`, most significant first. -/
def beBytes : Nat → Nat → List UInt8
  | 0, _ => []
  | k + 1, n => beBytes k (n / 256) ++ [UInt8.ofNat n]

/-- The number written by the first `k` bytes, most significant first. -/
def beNat : Nat → List UInt8 → Nat
  | 0, _ => 0
  | k + 1, l => beNat k l * 256 + (l.getD k 0).toNat

theorem beBytes_length : ∀ (k n : Nat), (beBytes k n).length = k := by
  intro k
  induction k with
  | zero => intro n; rfl
  | succ k ih => intro n; simp [beBytes, ih]

theorem beNat_append : ∀ (k : Nat) (l r : List UInt8), k ≤ l.length → beNat k (l ++ r) = beNat k l := by
  intro k
  induction k with
  | zero => intro l r _; rfl
  | succ k ih =>
    intro l r h
    have hget : (l ++ r).getD k 0 = l.getD k 0 := by
      simp [List.getD_eq_getElem?_getD, List.getElem?_append_left (show k < l.length by omega)]
    simp only [beNat, ih l r (by omega), hget]

theorem beNat_take : ∀ (k m : Nat) (l : List UInt8), k ≤ m → beNat k (l.take m) = beNat k l := by
  intro k
  induction k with
  | zero => intro m l _; rfl
  | succ k ih =>
    intro m l h
    have hget : (l.take m).getD k 0 = l.getD k 0 := by
      simp [List.getD_eq_getElem?_getD, List.getElem?_take_of_lt (show k < m by omega)]
    simp only [beNat, ih m l (by omega), hget]

theorem beNat_beBytes : ∀ (k n : Nat), beNat k (beBytes k n) = n % 256 ^ k := by
  intro k
  induction k with
  | zero => intro n; simp [beNat, Nat.mod_one]
  | succ k ih =>
    intro n
    have hlen := beBytes_length k (n / 256)
    have hlast : (beBytes k (n / 256) ++ [UInt8.ofNat n]).getD k 0 = UInt8.ofNat n := by
      simp [List.getD_eq_getElem?_getD, hlen]
    have hdigit : (UInt8.ofNat n).toNat = n % 256 := by simp
    rw [beNat, beBytes, hlast, beNat_append _ _ _ (by omega), ih, hdigit, Nat.pow_succ,
      Nat.mul_comm (256 ^ k) 256, Nat.mod_mul]
    ring

end Codec

/-- A fixed-width byte codec with its laws; by `decode_take` only the first `width` bytes count. -/
structure Codec (α : Type) where
  width : Nat
  encode : α → List UInt8
  decode : List UInt8 → α
  encode_length : ∀ a, (encode a).length = width
  decode_encode : ∀ a rest, decode (encode a ++ rest) = a
  decode_take : ∀ l, decode (l.take width) = decode l

namespace Codec

attribute [simp] Codec.encode_length Codec.decode_encode

variable {α : Type}

theorem decode_encode_self (c : Codec α) (a : α) : c.decode (c.encode a) = a := by
  have := c.decode_encode a []
  rwa [List.append_nil] at this

theorem decode_append (c : Codec α) {l : List UInt8} (r : List UInt8) (h : c.width ≤ l.length) :
    c.decode (l ++ r) = c.decode l := by
  rw [← c.decode_take (l ++ r), List.take_append_of_le_length h, c.decode_take]

def u8 : Codec UInt8 where
  width := 1
  encode v := [v]
  decode l := l.headD 0
  encode_length := fun _ => rfl
  decode_encode := fun _ _ => rfl
  decode_take := fun l => by cases l <;> rfl

def be16 : Codec UInt16 where
  width := 2
  encode v := beBytes 2 v.toNat
  decode l := UInt16.ofNat (beNat 2 l)
  encode_length := fun v => beBytes_length 2 v.toNat
  decode_encode := by
    intro v rest
    rw [beNat_append _ _ _ (by simp [beBytes_length]), beNat_beBytes]
    have : v.toNat < 256 ^ 2 := v.toNat_lt
    rw [Nat.mod_eq_of_lt this, UInt16.ofNat_toNat]
  decode_take := fun l => by rw [beNat_take 2 2 l le_rfl]

def be32 : Codec UInt32 where
  width := 4
  encode v := beBytes 4 v.toNat
  decode l := UInt32.ofNat (beNat 4 l)
  encode_length := fun v => beBytes_length 4 v.toNat
  decode_encode := by
    intro v rest
    rw [beNat_append _ _ _ (by simp [beBytes_length]), beNat_beBytes]
    have : v.toNat < 256 ^ 4 := v.toNat_lt
    rw [Nat.mod_eq_of_lt this, UInt32.ofNat_toNat]
  decode_take := fun l => by rw [beNat_take 4 4 l le_rfl]

def be64 : Codec UInt64 where
  width := 8
  encode v := beBytes 8 v.toNat
  decode l := UInt64.ofNat (beNat 8 l)
  encode_length := fun v => beBytes_length 8 v.toNat
  decode_encode := by
    intro v rest
    rw [beNat_append _ _ _ (by simp [beBytes_length]), beNat_beBytes]
    have : v.toNat < 256 ^ 8 := v.toNat_lt
    rw [Nat.mod_eq_of_lt this, UInt64.ofNat_toNat]
  decode_take := fun l => by rw [beNat_take 8 8 l le_rfl]

def pair {α β : Type} (c : Codec α) (d : Codec β) : Codec (α × β) where
  width := c.width + d.width
  encode p := c.encode p.1 ++ d.encode p.2
  decode l := (c.decode l, d.decode (l.drop c.width))
  encode_length := by intro p; simp
  decode_encode := by
    intro p rest
    have hdrop : (c.encode p.1 ++ (d.encode p.2 ++ rest)).drop c.width = d.encode p.2 ++ rest := by
      rw [← c.encode_length p.1, List.drop_left]
    rw [List.append_assoc, hdrop, c.decode_encode, d.decode_encode]
  decode_take := by
    intro l
    have hc : c.decode (l.take (c.width + d.width)) = c.decode l := by
      rw [← c.decode_take (l.take _), List.take_take, Nat.min_eq_left (by omega), c.decode_take]
    have hd : d.decode ((l.take (c.width + d.width)).drop c.width) = d.decode (l.drop c.width) := by
      rw [List.drop_take, Nat.add_sub_cancel_left, d.decode_take]
    rw [hc, hd]

def iso {α β : Type} (c : Codec α) (f : α → β) (g : β → α) (h : ∀ b, f (g b) = b) : Codec β where
  width := c.width
  encode b := c.encode (g b)
  decode l := f (c.decode l)
  encode_length := fun b => c.encode_length (g b)
  decode_encode := by intro b rest; rw [c.decode_encode, h]
  decode_take := by intro l; rw [c.decode_take]

def encodeAll {α : Type} (c : Codec α) (as : List α) : List UInt8 := as.flatMap c.encode

theorem encodeAll_length (c : Codec α) (as : List α) : (c.encodeAll as).length = as.length * c.width := by
  induction as with
  | nil => simp [encodeAll]
  | cons a as ih =>
    have : (c.encodeAll (a :: as)) = c.encode a ++ c.encodeAll as := rfl
    rw [this, List.length_append, ih, c.encode_length, List.length_cons]
    ring

theorem map_decode_encodeAll (c : Codec α) (as : List α) (rest : List UInt8) :
    (List.range as.length).map (fun i => c.decode ((c.encodeAll as ++ rest).drop (i * c.width))) = as := by
  induction as with
  | nil => rfl
  | cons a as ih =>
    have hcons : c.encodeAll (a :: as) = c.encode a ++ c.encodeAll as := rfl
    have hskip : ∀ i, (c.encodeAll (a :: as) ++ rest).drop ((i + 1) * c.width) =
        (c.encodeAll as ++ rest).drop (i * c.width) := by
      intro i
      have hlen : (i + 1) * c.width = (c.encode a).length + i * c.width := by
        rw [c.encode_length]; ring
      rw [hcons, hlen, List.append_assoc, List.drop_length_add_append]
    rw [List.length_cons, List.range_succ_eq_map, List.map_cons, List.map_map]
    refine congrArg₂ List.cons ?_ ?_
    · rw [hcons, Nat.zero_mul, List.drop_zero, List.append_assoc, c.decode_encode]
    · refine Eq.trans (List.map_congr_left fun i _ => ?_) ih
      show c.decode ((c.encodeAll (a :: as) ++ rest).drop ((i + 1) * c.width)) = _
      rw [hskip]

end Codec
