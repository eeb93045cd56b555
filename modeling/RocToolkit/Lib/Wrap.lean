import Mathlib.Algebra.Group.Int.Defs

/-!
# RocToolkit.Lib.Wrap

Numbers of which only the low bits are kept. A word stands for every number with these low bits, and the signed
difference of two words is the true one if that fits.
-/

namespace Wrap

variable {w : Nat} {a b : BitVec w} {x y : Int}

def LowBits (a : BitVec w) (x : Int) : Prop := a = BitVec.ofInt w x

theorem LowBits.add (h : LowBits a x) (n : Int) : LowBits (a + BitVec.ofInt w n) (x + n) := by
  rw [h, LowBits, BitVec.ofInt_add]

theorem toInt_sub (ha : LowBits a x) (hb : LowBits b y) (hlow : -2 ^ w ≤ 2 * (x - y)) (hhigh : 2 * (x - y) < 2 ^ w) :
    (a - b).toInt = x - y := by
  rw [ha, hb, BitVec.toInt_sub, BitVec.toInt_ofInt, BitVec.toInt_ofInt, ← Int.sub_bmod]
  apply Int.bmod_eq_of_le_mul_two <;> push_cast <;> omega

end Wrap
