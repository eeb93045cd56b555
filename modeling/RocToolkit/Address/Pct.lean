import RocToolkit.Core.Ctype

/-!
# RocToolkit.Address.Pct

Percent-encoding of `roc_address/pct.cpp`. Texts are the bytes of a C string without the terminating zero;
`pct_encode` and `pct_decode` refuse a zero among them. The string builder has room enough.
-/

namespace Roc.Address

open List

open Roc.Core (ascii isDigit isAlnum isXdigit isUpper toLower)

open UInt8 Option

/-! ## Classes of characters -/

def isUnreserved (c : UInt8) : Bool := isAlnum c || (ascii ['-', '_', '.', '~']).contains c

def isSubdelim (c : UInt8) : Bool := (ascii ['!', '$', '&', '\'', '(', ')', '*', '+', ',', ';', '=']).contains c

def isPchar (c : UInt8) : Bool := isUnreserved c || isSubdelim c || (ascii [':', '@']).contains c

def isSegmentChar (c : UInt8) : Bool := isPchar c || c == '/'.toUInt8

/-! ## Encoding and decoding -/

def toHex (c : UInt8) : UInt8 :=
  (ascii ['0', '1', '2', '3', '4', '5', '6', '7', '8', '9', 'A', 'B', 'C', 'D', 'E', 'F']).getD (c &&& 0xf).toNat 0

def hexValue (c : UInt8) : UInt8 := if isDigit c then c - '0'.toUInt8 else toLower c - 'a'.toUInt8 + 10

def fromHex (hi lo : UInt8) : UInt8 := hexValue hi <<< 4 ||| hexValue lo

def escape (c : UInt8) : List UInt8 := ['%'.toUInt8, toHex (c >>> 4), toHex (c &&& 0xf)]

/-- `pct_encode`, with the characters that are not encoded. -/
def pctEncode (skipEncoding : UInt8 → Bool) : List UInt8 → Option (List UInt8)
  | [] => some []
  | c :: rest =>
    if c = 0 then none
    else (pctEncode skipEncoding rest).map ((if skipEncoding c then [c] else escape c) ++ ·)

def pctDecode : List UInt8 → Option (List UInt8)
  | [] => some []
  | c :: rest =>
    if c = 0 then none
    else if c = '%'.toUInt8 then
      match rest with
      | hi :: lo :: rest =>
        if !isXdigit hi || !isXdigit lo then none
        else if fromHex hi lo = 0 then none
        else (pctDecode rest).map (fromHex hi lo :: ·)
      | _ => none
    else (pctDecode rest).map (c :: ·)

/-! ## Single characters -/

theorem hex_tables : (∀ n : Fin 256, fromHex (toHex (ofFin n >>> 4)) (toHex (ofFin n &&& 0xf)) = ofFin n ∧
      isXdigit (toHex (ofFin n)) = true ∧
      (isXdigit (ofFin n) = true → hexValue (ofFin n) < 16 ∧
        (hexValue (ofFin n) = 2 → ofFin n = '2'.toUInt8) ∧
        (hexValue (ofFin n) = 15 → ofFin n = 'F'.toUInt8 ∨ ofFin n = 'f'.toUInt8))) ∧
    ∀ a b : Fin 16, ofNat a <<< 4 ||| ofNat b = '/'.toUInt8 → a = 2 ∧ b = 15 := by
  decide +kernel

theorem fromHex_escape (c : UInt8) : fromHex (toHex (c >>> 4)) (toHex (c &&& 0xf)) = c := (hex_tables.1 c.toFin).1

theorem isXdigit_toHex (c : UInt8) : isXdigit (toHex c) = true := (hex_tables.1 c.toFin).2.1

theorem isSegmentChar_ne {c : UInt8} (h : isSegmentChar c = true) :
    c ≠ 0 ∧ c ≠ '%'.toUInt8 ∧ c ≠ '?'.toUInt8 ∧ c ≠ '#'.toUInt8 := by
  refine ⟨?_, ?_, ?_, ?_⟩
  all_goals
    rintro rfl
    exact absurd h (by decide)

theorem isXdigit_ne {c : UInt8} (h : isXdigit c = true) : c ≠ '?'.toUInt8 ∧ c ≠ '#'.toUInt8 := by
  refine ⟨?_, ?_⟩
  all_goals
    rintro rfl
    exact absurd h (by decide)

theorem fromHex_eq_slash {hi lo : UInt8} (hhi : isXdigit hi = true) (hlo : isXdigit lo = true)
    (h : fromHex hi lo = '/'.toUInt8) : hi = '2'.toUInt8 ∧ (lo = 'F'.toUInt8 ∨ lo = 'f'.toUInt8) := by
  obtain ⟨hltHi, htwo, -⟩ := (hex_tables.1 hi.toFin).2.2 hhi
  obtain ⟨hltLo, -, hfifteen⟩ := (hex_tables.1 lo.toFin).2.2 hlo
  have hdigits := hex_tables.2 ⟨(hexValue hi).toNat, hltHi⟩ ⟨(hexValue lo).toNat, hltLo⟩ (by simpa [fromHex] using h)
  have hvalue : (hexValue hi).toNat = 2 ∧ (hexValue lo).toNat = 15 :=
    ⟨Fin.ext_iff.mp hdigits.1, Fin.ext_iff.mp hdigits.2⟩
  exact ⟨htwo (UInt8.toNat_inj.mp hvalue.1), hfifteen (UInt8.toNat_inj.mp hvalue.2)⟩

/-! ## Texts -/

variable {skip : UInt8 → Bool} {c : UInt8} {s p t : List UInt8}

theorem pctEncode_cons (skip : UInt8 → Bool) (c : UInt8) (p : List UInt8) : pctEncode skip (c :: p) =
    if c = 0 then none else (pctEncode skip p).map ((if skip c then [c] else escape c) ++ ·) := rfl

theorem pctDecode_eq (c : UInt8) (rest : List UInt8) : pctDecode (c :: rest) = if c = 0 then none
    else if c = '%'.toUInt8 then
      match rest with
      | hi :: lo :: rest =>
        if !isXdigit hi || !isXdigit lo then none
        else if fromHex hi lo = 0 then none
        else (pctDecode rest).map (fromHex hi lo :: ·)
      | _ => none
    else (pctDecode rest).map (c :: ·) := by
  conv_lhs => unfold pctDecode

theorem pctDecode_escape (hc : c ≠ 0) (rest : List UInt8) :
    pctDecode (escape c ++ rest) = (pctDecode rest).map (c :: ·) := by
  have hp : ('%'.toUInt8 : UInt8) ≠ 0 := by decide
  rw [escape, cons_append, cons_append, cons_append, nil_append, pctDecode_eq, if_neg hp, if_pos rfl]
  simp only [isXdigit_toHex, fromHex_escape, Bool.not_true, Bool.or_self, Bool.false_eq_true, if_false, if_neg hc]

theorem pctDecode_cons (hz : c ≠ 0) (hp : c ≠ '%'.toUInt8) (rest : List UInt8) :
    pctDecode (c :: rest) = (pctDecode rest).map (c :: ·) := by
  rw [pctDecode_eq, if_neg hz, if_neg hp]

theorem pctEncode_total (skip : UInt8 → Bool) (h : ∀ c ∈ p, c ≠ 0) : ∃ t, pctEncode skip p = some t := by
  induction p with
  | nil => exact ⟨[], rfl⟩
  | cons c p ih =>
    obtain ⟨t, ht⟩ := ih (forall_mem_cons.mp h).2
    rw [pctEncode_cons, if_neg (h c mem_cons_self), ht]
    exact ⟨_, rfl⟩

theorem pctDecode_pctEncode (hskip : ∀ c, skip c = true → c ≠ '%'.toUInt8) (h : pctEncode skip p = some t) :
    pctDecode t = some p := by
  induction p generalizing t with
  | nil =>
    cases h
    rfl
  | cons c p ih =>
    rw [pctEncode_cons] at h
    split at h
    · cases h
    · next hc =>
      obtain ⟨t', ht, rfl⟩ := map_eq_some_iff.mp h
      split
      · next hs => rw [singleton_append, pctDecode_cons hc (hskip c hs), ih ht, map_some]
      · rw [pctDecode_escape hc, ih ht, map_some]

variable {rest : List UInt8}

theorem pctDecode_percent (h : pctDecode ('%'.toUInt8 :: rest) = some p) :
    ∃ hi lo rest' p', rest = hi :: lo :: rest' ∧ isXdigit hi = true ∧ isXdigit lo = true ∧
      fromHex hi lo ≠ 0 ∧ pctDecode rest' = some p' ∧ p = fromHex hi lo :: p' := by
  rw [pctDecode_eq, if_neg (by decide), if_pos rfl] at h
  split at h
  · next hi lo rest' =>
    split at h
    · cases h
    · next hx =>
      split at h
      · cases h
      · next hz =>
        obtain ⟨p', hp', rfl⟩ := map_eq_some_iff.mp h
        simp only [Bool.or_eq_true, Bool.not_eq_true', not_or, Bool.not_eq_false] at hx
        exact ⟨hi, lo, rest', p', rfl, hx.1, hx.2, hz, hp', rfl⟩
  · cases h

theorem pctDecode_plain (hc : c ≠ '%'.toUInt8) (h : pctDecode (c :: rest) = some p) :
    c ≠ 0 ∧ ∃ p', pctDecode rest = some p' ∧ p = c :: p' := by
  by_cases hz : c = 0
  · rw [pctDecode_eq, if_pos hz] at h
    cases h
  · rw [pctDecode_cons hz hc] at h
    obtain ⟨p', hp', rfl⟩ := map_eq_some_iff.mp h
    exact ⟨hz, p', hp', rfl⟩

theorem ne_zero_of_pctDecode (h : pctDecode s = some p) : ∀ c ∈ p, c ≠ 0 := by
  induction p generalizing s with
  | nil => simp
  | cons b p ih =>
    cases s with
    | nil => cases h
    | cons c rest =>
      by_cases hc : c = '%'.toUInt8
      · subst hc
        obtain ⟨hi, lo, rest', p', -, -, -, hz, hp', hcons⟩ := pctDecode_percent h
        cases hcons
        exact forall_mem_cons.mpr ⟨hz, ih hp'⟩
      · obtain ⟨hz, p', hp', hcons⟩ := pctDecode_plain hc h
        cases hcons
        exact forall_mem_cons.mpr ⟨hz, ih hp'⟩

theorem pctDecode_ne_nil (hs : s ≠ []) (h : pctDecode s = some p) : p ≠ [] := by
  rintro rfl
  cases s with
  | nil => exact hs rfl
  | cons c rest =>
    by_cases hc : c = '%'.toUInt8
    · subst hc
      obtain ⟨_, _, _, _, -, -, -, -, -, hnil⟩ := pctDecode_percent h
      cases hnil
    · obtain ⟨-, _, -, hnil⟩ := pctDecode_plain hc h
      cases hnil

theorem pctEncode_pchars (h : pctEncode isSegmentChar p = some t) : ∀ c ∈ t, c ≠ '?'.toUInt8 ∧ c ≠ '#'.toUInt8 := by
  induction p generalizing t with
  | nil =>
    cases h
    simp
  | cons b p ih =>
    rw [pctEncode_cons] at h
    split at h
    · cases h
    · obtain ⟨t', ht, rfl⟩ := map_eq_some_iff.mp h
      intro c hc
      rcases mem_append.mp hc with hc | hc
      · split at hc
        · next hs =>
          obtain rfl := mem_singleton.mp hc
          exact (isSegmentChar_ne hs).2.2
        · simp only [escape, mem_cons, not_mem_nil, or_false] at hc
          obtain rfl | rfl | rfl := hc
          · decide
          · exact isXdigit_ne (isXdigit_toHex _)
          · exact isXdigit_ne (isXdigit_toHex _)
      · exact ih ht c hc

end Roc.Address
