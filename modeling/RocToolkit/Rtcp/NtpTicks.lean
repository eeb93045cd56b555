import Mathlib.Tactic.Ring
import RocToolkit.Rtcp.Ntp

/-!
# RocToolkit.Rtcp.NtpTicks

What the NTP conversions compute, in integers. A time in nanoseconds is a number of ticks of `2^-32` s
since 1900, and an `ntp_timestamp_t` is such a number modulo `2^64`. Reducing a timestamp to its middle 32
bits loses a multiple of `2^48` ticks and the low 16 bits; `ntp_extend` restores the multiple that is
nearest to the local clock.
-/

namespace Roc.Rtcp

open Packet Nat

/-- Time since the NTP epoch in units of `2^-32` s, rounded down. -/
def ticks (time : Int) : Int := (time + 2208988800 * 1000000000) * 4294967296 / 1000000000

def ofTicks (z : Int) : Int := (z - 2208988800 * 4294967296) * 1000000000 / 4294967296

/-- The timestamp stands for `z` ticks. -/
def Stands (x : UInt64) (z : Int) : Prop := (x.toNat : Int) = z % 18446744073709551616

theorem split_seconds (seconds nans : Nat) (h : nans < 1000000000) :
    seconds % 4294967296 * 4294967296 + nans * 4294967296 / 1000000000 % 4294967296 =
      (seconds * 1000000000 + nans) * 4294967296 / 1000000000 % 18446744073709551616 := by
  have hsplit : (seconds * 1000000000 + nans) * 4294967296 / 1000000000 =
      seconds * 4294967296 + nans * 4294967296 / 1000000000 := by
    rw [show (seconds * 1000000000 + nans) * 4294967296 =
      1000000000 * (seconds * 4294967296) + nans * 4294967296 by ring, mul_add_div (by decide)]
  have hlt : nans * 4294967296 / 1000000000 < 4294967296 := by omega
  rw [hsplit]
  generalize nans * 4294967296 / 1000000000 = frac at hlt
  omega

theorem nanoseconds2Ntp_ok {d : Int} (h : 0 ≤ d) : ∃ x, nanoseconds2Ntp d = .ok x ∧
      (x.toNat : Int) = (d * 4294967296 / 1000000000) % 18446744073709551616 := by
  unfold nanoseconds2Ntp
  rw [if_neg (by omega)]
  refine ⟨_, rfl, ?_⟩
  obtain ⟨d, rfl⟩ := Int.eq_ofNat_of_zero_le h
  simp only [second, Int.toNat_natCast, reducePow]
  have hd : d / 1000000000 * 1000000000 + (d - d / 1000000000 * 1000000000) = d := by omega
  have hv := split_seconds (d / 1000000000) (d - d / 1000000000 * 1000000000) (by omega)
  rw [hd] at hv
  rw [hv, UInt64.toNat_ofNat_of_lt' (mod_lt _ (by decide))]
  push_cast
  rfl

theorem unix2Ntp_ok {time : Int} (h : -2208988800000000000 ≤ time) :
    ∃ x, unix2Ntp time = .ok x ∧ Stands x (ticks time) := by
  have hera : era1 * second = 2085978496000000000 := by decide
  have hepoch : unixEpoch * second = 2208988800000000000 := by decide
  unfold unix2Ntp
  rw [hera, hepoch]
  by_cases hlt : time < (2085978496000000000 : Nat)
  · obtain ⟨x, hx, hv⟩ := nanoseconds2Ntp_ok (d := time + (2208988800000000000 : Nat)) (by omega)
    exact ⟨x, by rw [if_pos hlt, hx], by rw [Stands, hv, ticks]; rfl⟩
  · obtain ⟨x, hx, hv⟩ := nanoseconds2Ntp_ok (d := time - (2085978496000000000 : Nat)) (by omega)
    refine ⟨x, by rw [if_neg hlt, hx], ?_⟩
    -- NTP era 1 begins `2^32` s after the NTP epoch
    have hwrap : (time + 2208988800 * 1000000000) * 4294967296 =
        (time - (2085978496000000000 : Nat)) * 4294967296 + 18446744073709551616 * 1000000000 := by
      push_cast
      ring
    rw [Stands, hv, ticks, hwrap, Int.add_mul_ediv_right _ _ (by decide)]
    omega

theorem ntp2Nanoseconds_eq (x : UInt64) : ntp2Nanoseconds x = (x.toNat : Int) * 1000000000 / 4294967296 := by
  simp only [ntp2Nanoseconds, second]
  omega

/-! ## Masks -/

theorem and_mask (x a b : Nat) : x &&& (2 ^ a - 1) * 2 ^ b = x / 2 ^ b % 2 ^ a * 2 ^ b := by
  apply Nat.eq_of_testBit_eq
  intro i
  rw [Nat.testBit_and, Nat.testBit_mul_two_pow, Nat.testBit_mul_two_pow, Nat.testBit_two_pow_sub_one,
    Nat.testBit_mod_two_pow, Nat.testBit_div_two_pow]
  by_cases hi : b ≤ i
  · rw [Nat.sub_add_cancel hi]
    simp [hi, Bool.and_comm]
  · simp [hi]

theorem toNat_and_high (x : UInt64) :
    (x &&& 0xFFFF000000000000).toNat = x.toNat / 281474976710656 * 281474976710656 := by
  have hm := and_mask x.toNat 16 48
  have hx := x.toNat_lt
  rw [UInt64.toNat_and]
  simp only [reducePow, reduceSub, reduceMul] at hm
  rw [show (0xFFFF000000000000 : UInt64).toNat = 18446462598732840960 from rfl, hm, mod_eq_of_lt (by omega)]

theorem toNat_and_top (x : UInt64) :
    (x &&& 0x8000000000000000).toNat = x.toNat / 9223372036854775808 * 9223372036854775808 := by
  have hm := and_mask x.toNat 1 63
  have hx := x.toNat_lt
  rw [UInt64.toNat_and]
  simp only [reducePow, reduceSub, reduceMul] at hm
  rw [show (0x8000000000000000 : UInt64).toNat = 9223372036854775808 from rfl, hm, mod_eq_of_lt (by omega)]

variable {v x base : UInt64}

theorem and_outer_eq_zero (hlow : v.toNat % 65536 = 0) (hhigh : v.toNat < 281474976710656) :
    v &&& 0xFFFF00000000FFFF = 0 := by
  apply UInt64.toNat_inj.mp
  have hm := and_mask v.toNat 16 48
  have hl := and_two_pow_sub_one_eq_mod v.toNat 16
  simp only [reducePow, reduceSub, reduceMul] at hm hl
  rw [UInt64.toNat_and, show (0xFFFF00000000FFFF : UInt64).toNat = 18446462598732840960 ||| 65535 from rfl,
    and_or_distrib_left, hm, hl, hlow, div_eq_of_lt hhigh]
  rfl

/-! ## From timestamps to times -/

theorem ntp2Unix_toNat (x : UInt64) : ntp2Unix x = if 9223372036854775808 ≤ x.toNat then
      if x.toNat < 9487534653230284800 then -((9487534653230284800 - (x.toNat : Int)) * 1000000000 / 4294967296)
      else ((x.toNat : Int) - 9487534653230284800) * 1000000000 / 4294967296
    else ((x.toNat : Int) + 8959209420479266816) * 1000000000 / 4294967296 := by
  have htop : (x &&& 0x8000000000000000 ≠ 0) ↔ 9223372036854775808 ≤ x.toNat := by
    have hm := toNat_and_top x
    have hlt := x.toNat_lt
    rw [ne_eq, ← UInt64.toNat_inj, hm, UInt64.toNat_zero]
    omega
  have hepoch : (UInt64.ofNat unixEpoch <<< 32).toNat = 9487534653230284800 := by decide
  have hera : (UInt64.ofNat era1 <<< 32).toNat = 8959209420479266816 := by decide
  unfold ntp2Unix
  simp only [htop, UInt64.lt_iff_toNat_lt, hepoch, ntp2Nanoseconds_eq]
  split
  · split
    · rw [UInt64.toNat_sub_of_le _ _ (by rw [UInt64.le_iff_toNat_le, hepoch]; omega), hepoch, Int.ofNat_sub (by omega)]
      rfl
    · rw [UInt64.toNat_sub_of_le _ _ (by rw [UInt64.le_iff_toNat_le, hepoch]; omega), hepoch, Int.ofNat_sub (by omega)]
      rfl
  · rw [UInt64.toNat_add, hera, mod_eq_of_lt (by omega)]
    rfl

theorem ntp2Unix_eq {z : Int} (hx : Stands x z) (hlow : 9223372036854775808 ≤ z)
    (hhigh : z < 27934278726939836416) (hpos : 0 < ntp2Unix x) : ntp2Unix x = ofTicks z := by
  have hx' : (x.toNat : Int) = z % 18446744073709551616 := hx
  rw [ntp2Unix_toNat] at hpos ⊢
  rw [ofTicks]
  split at hpos
  · split at hpos
    · omega
    · rw [if_pos (by assumption), if_neg (by assumption),
        show (x.toNat : Int) - 9487534653230284800 = z - 2208988800 * 4294967296 by omega]
  · rw [if_neg (by assumption), show (x.toNat : Int) + 8959209420479266816 = z - 2208988800 * 4294967296 by omega]

/-! ## Extension of the middle 32 bits -/

theorem ntpDistance_eq {a b : UInt64} {d : Int} (h : (a.toNat : Int) = (b.toNat + d) % 18446744073709551616)
    (hlow : -9223372036854775808 < d) (hhigh : d < 9223372036854775808) : ntpDistance a b = d.natAbs := by
  have ha := a.toNat_lt
  have hb := b.toNat_lt
  unfold ntpDistance
  rw [BitVec.toInt_eq_toNat_cond, UInt64.toNat_toBitVec, UInt64.toNat_sub]
  simp only [reducePow] at ha hb ⊢
  split <;> omega

theorem toNat_combine {b : UInt64} (hv : v.toNat < 281474976710656) :
    ((b &&& 0xFFFF000000000000) ||| v).toNat = b.toNat / 281474976710656 * 281474976710656 + v.toNat := by
  rw [UInt64.toNat_or, toNat_and_high]
  have hor := shiftLeft_add_eq_or_of_lt (i := 48) hv (b.toNat / 281474976710656)
  rw [shiftLeft_eq] at hor
  exact hor.symm

/-- The offset from the base that `ntp_extend` chooses, by the one that the high bits of the base would give. -/
def nearest (e : Int) : Int :=
  if 140737488355328 < e then e - 281474976710656
  else if e < -140737488355328 then e + 281474976710656
  else e

theorem nearest_near {e : Int} (hlow : -281474976710656 < e) (hhigh : e < 281474976710656) :
    -140737488355328 ≤ nearest e ∧ nearest e ≤ 140737488355328 ∧ (nearest e - e) % 281474976710656 = 0 := by
  rw [nearest]
  omega

theorem ntpExtend_ok {c : Int} (hc : Stands base c) (hlow : v.toNat % 65536 = 0) (hhigh : v.toNat < 281474976710656) :
    ∃ y, ntpExtend base v = .ok y ∧ Stands y (c + nearest ((v.toNat : Int) - base.toNat % 281474976710656)) := by
  have hb := base.toNat_lt
  simp only [reducePow] at hb
  have hc : (base.toNat : Int) = c % 18446744073709551616 := hc
  have hsame := toNat_combine (b := base) hhigh
  have hdown := toNat_combine (b := base - 0x0001000000000000) hhigh
  have hup := toNat_combine (b := base + 0x0001000000000000) hhigh
  rw [UInt64.toNat_sub, show (0x0001000000000000 : UInt64).toNat = 281474976710656 from rfl] at hdown
  rw [UInt64.toNat_add, show (0x0001000000000000 : UInt64).toNat = 281474976710656 from rfl] at hup
  simp only [reducePow, reduceSub] at hdown hup
  generalize he : (v.toNat : Int) - base.toNat % 281474976710656 = e
  -- how far the three candidates are from the base
  have hd0 := ntpDistance_eq (a := (base &&& 0xFFFF000000000000) ||| v) (b := base) (d := e)
    (by omega) (by omega) (by omega)
  have hd1 := ntpDistance_eq (a := ((base - 0x0001000000000000) &&& 0xFFFF000000000000) ||| v) (b := base)
    (d := e - 281474976710656) (by omega) (by omega) (by omega)
  have hd2 := ntpDistance_eq (a := ((base + 0x0001000000000000) &&& 0xFFFF000000000000) ||| v) (b := base)
    (d := e + 281474976710656) (by omega) (by omega) (by omega)
  unfold ntpExtend
  rw [if_neg (not_not.mpr (and_outer_eq_zero hlow hhigh))]
  dsimp only
  rw [hd0, hd1, hd2, nearest]
  by_cases hover : 140737488355328 < e
  · rw [if_neg (by omega), if_pos (by omega), if_pos hover]
    exact ⟨_, rfl, by rw [Stands]; omega⟩
  · rw [if_neg hover]
    by_cases hunder : e < -140737488355328
    · rw [if_neg (by omega), if_neg (by omega), if_pos hunder]
      exact ⟨_, rfl, by rw [Stands]; omega⟩
    · rw [if_pos (by omega), if_neg hunder]
      exact ⟨_, rfl, by rw [Stands]; omega⟩

/-! ## The 32-bit form -/

theorem toNat_ntp32 (x : UInt64) : (ntp32Value (ntp32SetValue x)).toNat = x.toNat / 65536 % 4294967296 * 65536 := by
  have hx := x.toNat_lt
  simp only [ntp32Value, ntp32SetValue, UInt64.toNat_shiftLeft, UInt64.toNat_shiftRight,
    UInt32.toNat_toUInt64, UInt64.toNat_toUInt32, shiftLeft_eq, shiftRight_eq_div_pow,
    show (16 : UInt64).toNat % 64 = 16 from rfl, reducePow] at hx ⊢
  omega

def middle (n : Nat) : Nat := n / 65536 % 4294967296 * 65536

theorem toNat_and_middle (x : UInt64) : (x &&& 0x0000FFFFFFFF0000).toNat = middle x.toNat := by
  have hm := and_mask x.toNat 32 16
  simp only [reducePow, reduceSub, reduceMul] at hm
  rw [UInt64.toNat_and, show (0x0000FFFFFFFF0000 : UInt64).toNat = 281474976645120 from rfl, hm, middle]

theorem toNat_and_upper (x : UInt64) : (x &&& 0xFFFFFFFFFFFF0000).toNat = x.toNat / 65536 * 65536 := by
  have hm := and_mask x.toNat 48 16
  have hx := x.toNat_lt
  simp only [reducePow, reduceSub, reduceMul] at hm
  rw [UInt64.toNat_and, show (0xFFFFFFFFFFFF0000 : UInt64).toNat = 18446744073709486080 from rfl, hm,
    mod_eq_of_lt (by omega)]

theorem ntpClamp32_toNat (x max : UInt64) : (ntpClamp32 x max).toNat =
    middle (min ((x.toNat + 32768) % 18446744073709551616 / 65536 * 65536) (max.toNat / 65536 * 65536)) := by
  have hround : ((x + 0x8000) &&& 0xFFFFFFFFFFFF0000).toNat =
      (x.toNat + 32768) % 18446744073709551616 / 65536 * 65536 := by
    rw [toNat_and_upper, UInt64.toNat_add]
    rfl
  have hmax := toNat_and_upper max
  simp only [ntpClamp32, toNat_and_middle, gt_iff_lt, UInt64.lt_iff_toNat_lt, hround, hmax]
  split
  · rw [min_eq_right (by omega), hmax]
  · rw [min_eq_left (by omega), hround]

theorem toNat_ntpClamp32 (h : x.toNat < 18446744073709518848) :
    (ntpClamp32 x maxDelay).toNat = min ((x.toNat + 32768) / 65536) 4294967295 * 65536 := by
  rw [ntpClamp32_toNat, middle, show maxDelay.toNat = 281474976710655 from rfl]
  omega

variable {hold delay sent current : Int}

theorem delay_near (h : 0 ≤ hold) (hlt : hold < 4294967000000000000) (hx : nanoseconds2Ntp hold = .ok x)
    (hd : delay = ntp2Nanoseconds (ntp32Value (ntp32SetValue (ntpClamp32 x maxDelay)))) :
    (-7631 ≤ hold - delay ∧ hold - delay ≤ 7632) ∨ delay = 65535999984741 := by
  obtain ⟨x', hx', hv⟩ := nanoseconds2Ntp_ok h
  obtain rfl : x = x' := Except.ok.inj (hx.symm.trans hx')
  have hfrac : hold * 4294967296 / 1000000000 < 18446744073709518848 := by omega
  rw [Int.emod_eq_of_lt (by omega) (by omega)] at hv
  rw [ntp2Nanoseconds_eq, toNat_ntp32, toNat_ntpClamp32 (by omega), Nat.mul_div_cancel _ (by decide),
    Nat.mod_eq_of_lt (by omega)] at hd
  rcases Nat.le_total ((x.toNat + 32768) / 65536) 4294967295 with hle | hle
  · rw [Nat.min_eq_left hle] at hd
    generalize hq : (x.toNat + 32768) / 65536 = q at hd
    exact .inl (by omega)
  · rw [Nat.min_eq_right hle] at hd
    exact .inr (by omega)

/-! ## Round trips -/

theorem ofTicks_add (z k : Int) : ofTicks (z + k * 281474976710656) = ofTicks z + k * 65536000000000 := by
  rw [ofTicks, ofTicks, show (z + k * 281474976710656 - 2208988800 * 4294967296) * 1000000000 =
    (z - 2208988800 * 4294967296) * 1000000000 + k * 65536000000000 * 4294967296 by ring,
    Int.add_mul_ediv_right _ _ (by decide)]

theorem ofTicks_cut (time : Int) : 0 ≤ time - ofTicks (ticks time - ticks time % 65536) ∧
    time - ofTicks (ticks time - ticks time % 65536) ≤ 15260 := by
  rw [ofTicks]
  generalize hx : ticks time = x
  rw [ticks] at hx
  generalize hy : x - x % 65536 = y
  omega

/-- The time at which a report was sent, restored from the middle bits of its timestamp and the local time
`current`: cut off, and possibly later by a multiple of `2^16` s. -/
theorem extend_near (hsent : 0 ≤ sent) (hcurrent : 0 ≤ current)
    (hrange : current < 4233462144000000000) (horder : sent ≤ current + 1) {y : UInt64}
    (hx : unix2Ntp sent = .ok x) (hbase : unix2Ntp current = .ok base)
    (hy : ntpExtend base (ntp32Value (ntp32SetValue x)) = .ok y) (hpos : 0 < ntp2Unix y) :
    current - ntp2Unix y ≤ 32768000000002 ∧
      ∃ k : Int, 0 ≤ k ∧ 0 ≤ sent - (ntp2Unix y - k * 65536000000000) ∧
        sent - (ntp2Unix y - k * 65536000000000) ≤ 15260 := by
  obtain ⟨x', hx', hsx⟩ := unix2Ntp_ok (show -2208988800000000000 ≤ sent by omega)
  obtain rfl : x = x' := Except.ok.inj (hx.symm.trans hx')
  obtain ⟨base', hb', hsb⟩ := unix2Ntp_ok (show -2208988800000000000 ≤ current by omega)
  obtain rfl : base = base' := Except.ok.inj (hbase.symm.trans hb')
  have hv := toNat_ntp32 x
  obtain ⟨y', hy', hsy⟩ := ntpExtend_ok (v := ntp32Value (ntp32SetValue x)) hsb (by rw [hv]; omega) (by rw [hv]; omega)
  obtain rfl : y = y' := Except.ok.inj (hy.symm.trans hy')
  have hsb' : (base.toNat : Int) = ticks current % 18446744073709551616 := hsb
  have hnear := nearest_near (e := ((ntp32Value (ntp32SetValue x)).toNat : Int) - base.toNat % 281474976710656)
    (by omega) (by rw [hv]; omega)
  obtain ⟨z, hz⟩ : ∃ z, z = ticks current + nearest (((ntp32Value (ntp32SetValue x)).toNat : Int) -
    base.toNat % 281474976710656) := ⟨_, rfl⟩
  rw [← hz] at hsy
  have hcut := ofTicks_cut sent
  have hc : 9487534653230284800 ≤ ticks current ∧ ticks current < 27670116110564327424 := by
    rw [ticks]
    omega
  have horder' : ticks sent ≤ ticks current + 5 := by
    rw [ticks, ticks]
    omega
  have hback : current - ofTicks (ticks current - 140737488355328) ≤ 32768000000002 := by
    rw [ofTicks]
    generalize hx : ticks current = c
    rw [ticks] at hx
    omega
  have hunix := ntp2Unix_eq hsy (by omega) (by omega) hpos
  have hsx : (x.toNat : Int) = ticks sent % 18446744073709551616 := hsx
  rw [hv] at hnear hz
  obtain ⟨k, hk⟩ : ∃ k : Int, z = ticks sent - ticks sent % 65536 + k * 281474976710656 :=
    ⟨(z - (ticks sent - ticks sent % 65536)) / 281474976710656, by omega⟩
  rw [hunix]
  refine ⟨?_, k, by omega, ?_⟩
  · have hmono : ofTicks (ticks current - 140737488355328) ≤ ofTicks z := by
      rw [ofTicks, ofTicks]
      omega
    omega
  · rw [hk, ofTicks_add]
    omega

/-- The round trip that is computed from a report sent at `sent`, its reply after `hold` on the other side
and the arrival of the reply at `reply`. If it is not negative, then it is the right one: a wrong multiple of
`2^16` s or a delay that did not fit would have made it negative. -/
theorem rtt_near {reply : Int} (hsent : 0 ≤ sent) (hcurrent : 0 ≤ current)
    (hrange : current < 4233462144000000000) (horder : sent ≤ current + 1)
    (hhold : 0 ≤ hold) (hlong : hold < 4294967000000000000)
    (hrecent : reply - current ≤ 32767000000001) (hdelays : reply - sent - hold ≤ 65534000000004)
    {y d : UInt64} (hx : unix2Ntp sent = .ok x) (hbase : unix2Ntp current = .ok base)
    (hy : ntpExtend base (ntp32Value (ntp32SetValue x)) = .ok y) (hpos : 0 < ntp2Unix y)
    (hd : nanoseconds2Ntp hold = .ok d)
    (hdelay : delay = ntp2Nanoseconds (ntp32Value (ntp32SetValue (ntpClamp32 d maxDelay))))
    (hrtt : 0 ≤ reply - ntp2Unix y - delay) :
    -7631 ≤ reply - ntp2Unix y - delay - (reply - sent - hold) ∧
      reply - ntp2Unix y - delay - (reply - sent - hold) ≤ 22892 := by
  obtain ⟨hrecent', k, hk, hlow, hhigh⟩ := extend_near hsent hcurrent hrange horder hx hbase hy hpos
  rcases delay_near hhold hlong hd hdelay with ⟨hdl, hdh⟩ | hmax
  · obtain rfl : k = 0 := by omega
    omega
  · omega

end Roc.Rtcp
