import Mathlib.Data.List.Basic

/-!
# RocToolkit.Core.Ctype

Characters of C strings as bytes, with the classes of the "C" locale, and `strtol`.
-/

namespace Roc.Core

def ascii (l : List Char) : List UInt8 := l.map Char.toUInt8

def isDigit (c : UInt8) : Bool := '0'.toUInt8 ≤ c && c ≤ '9'.toUInt8

def isLower (c : UInt8) : Bool := 'a'.toUInt8 ≤ c && c ≤ 'z'.toUInt8

def isUpper (c : UInt8) : Bool := 'A'.toUInt8 ≤ c && c ≤ 'Z'.toUInt8

def isAlnum (c : UInt8) : Bool := isDigit c || isLower c || isUpper c

def isXdigit (c : UInt8) : Bool :=
  isDigit c || ('a'.toUInt8 ≤ c && c ≤ 'f'.toUInt8) || ('A'.toUInt8 ≤ c && c ≤ 'F'.toUInt8)

def toLower (c : UInt8) : UInt8 := if isUpper c then c + 32 else c

def decimal (text : List UInt8) : Nat := text.foldl (fun n c => 10 * n + (c - '0'.toUInt8).toNat) 0

def longMax : Int := 9223372036854775807

def longMin : Int := -9223372036854775808

/-- `strtol(text, &end, 10)` of a text without blanks in front: the number, if the text is one as a whole. -/
def strtol (text : List UInt8) : Option Int :=
  let sign : Int := if text.head? = some '-'.toUInt8 then -1 else 1
  let digits := if text.head? = some '-'.toUInt8 ∨ text.head? = some '+'.toUInt8 then text.tail else text
  if digits ≠ [] ∧ digits.all isDigit then some (max longMin (min longMax (sign * decimal digits))) else none

/-- What the parsers make of `strtol`: a number that reached a limit is refused. -/
def parseLong (text : List UInt8) : Option Int :=
  match strtol text with
  | none => none
  | some n => if n = longMax ∨ n = longMin then none else some n

theorem parseLong_digits {text : List UInt8} (hne : text ≠ []) (hd : ∀ c ∈ text, isDigit c = true) :
    parseLong text = if (decimal text : Int) < longMax then some (decimal text : Int) else none := by
  cases text with
  | nil => exact absurd rfl hne
  | cons c rest =>
    have hc := hd c List.mem_cons_self
    have hminus : c ≠ '-'.toUInt8 := by
      rintro rfl
      exact absurd hc (by decide)
    have hplus : c ≠ '+'.toUInt8 := by
      rintro rfl
      exact absurd hc (by decide)
    have hall : (c :: rest).all isDigit = true := List.all_eq_true.mpr hd
    have hpos : (0 : Int) ≤ decimal (c :: rest) := Int.natCast_nonneg _
    have hmax : max longMin (min longMax (decimal (c :: rest) : Int)) = min longMax (decimal (c :: rest)) := by
      unfold longMin longMax
      omega
    unfold parseLong strtol
    simp only [List.head?_cons, Option.some.injEq, hminus, hplus, or_self, if_false, hall,
      ne_eq, reduceCtorEq, not_false_eq_true, and_self, if_true, Int.one_mul, hmax]
    generalize (decimal (c :: rest) : Int) = n at hpos
    unfold longMax longMin
    by_cases hlt : n < 9223372036854775807
    · rw [if_pos hlt, if_neg (by omega)]
      congr 1
      omega
    · rw [if_neg hlt, if_pos (by omega)]

end Roc.Core
