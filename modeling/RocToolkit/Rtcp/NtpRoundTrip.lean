import RocToolkit.Rtcp.NtpTicks

/-!
# RocToolkit.Rtcp.NtpRoundTrip

The conversions between Unix and NTP time over the years that the code handles, 1968 to 2104, and the two ways in
which RTCP shortens a timestamp to 32 bits: what `ntp_extend` restores, and what `ntp_clamp_32` keeps of a delay.
-/

namespace Roc.Rtcp

open Packet

/-! ## Conversion and back -/

/-- From 1968-01-20 03:14:08 on, where the top bit of a timestamp is set for the first time, until it is set again
in NTP era 1. -/
def Handled (time : Int) : Prop := -61505152000000000 ≤ time ∧ time < 4233462144000000000

instance (time : Int) : Decidable (Handled time) := inferInstanceAs (Decidable (_ ∧ _))

/-- The exact values of the unsigned expressions of `nanoseconds_2_ntp`. -/
def nanoseconds2NtpValues (nsDelta : Int) : List Int :=
  let seconds := nsDelta / Int.ofNat second
  let nans := nsDelta - seconds * Int.ofNat second
  [nsDelta, seconds * Int.ofNat second, nans, nans * 4294967296]

/-- The exact values of the signed expressions of `ntp_2_nanoseconds`. -/
def ntp2NanosecondsValues (ntpDelta : Int) : List Int :=
  let hi := ntpDelta / 4294967296
  let lo := ntpDelta % 4294967296
  [lo * Int.ofNat second, hi * Int.ofNat second, hi * Int.ofNat second + lo * Int.ofNat second / 4294967296]

/-- The argument of `nanoseconds_2_ntp` in `unix_2_ntp`. -/
def unix2NtpDelta (unixTime : Int) : Int :=
  if unixTime < Int.ofNat (era1 * second) then unixTime + Int.ofNat (unixEpoch * second)
  else unixTime - Int.ofNat (era1 * second)

/-- The argument of `ntp_2_nanoseconds` in `ntp_2_unix`. -/
def ntp2UnixDelta (ntpTime : UInt64) : Int :=
  if 9223372036854775808 ≤ ntpTime.toNat then
    if ntpTime.toNat < unixEpoch * 4294967296 then Int.ofNat (unixEpoch * 4294967296) - Int.ofNat ntpTime.toNat
    else Int.ofNat ntpTime.toNat - Int.ofNat (unixEpoch * 4294967296)
  else Int.ofNat ntpTime.toNat + Int.ofNat (era1 * 4294967296)

/-- All values fit into 64 bits. The negation in `ntp_2_unix` is of a value that is not negative. -/
structure NoOverflow (unixTime : Int) (ntpTime : UInt64) : Prop where
  unsigned : ∀ v ∈ Int.ofNat (unixEpoch * 4294967296) :: Int.ofNat (era1 * 4294967296) :: ntp2UnixDelta ntpTime ::
    nanoseconds2NtpValues (unix2NtpDelta unixTime), 0 ≤ v ∧ v < 18446744073709551616
  signed : ∀ v ∈ Int.ofNat (unixEpoch * second) :: Int.ofNat (era1 * second) :: unix2NtpDelta unixTime ::
    ntp2NanosecondsValues (ntp2UnixDelta ntpTime), -9223372036854775808 ≤ v ∧ v < 9223372036854775808

variable {time : Int}

theorem noOverflow (h : Handled time) (x : UInt64) : NoOverflow time x := by
  have hepoch : unixEpoch = 2208988800 := by decide
  have hera : era1 = 2085978496 := by decide
  have hx := x.toNat_lt
  obtain ⟨hlow, hhigh⟩ := h
  have hdelta : 0 ≤ unix2NtpDelta time ∧ unix2NtpDelta time < 4294967296000000000 := by
    rw [unix2NtpDelta, hepoch, hera]
    simp only [second, Int.ofNat_eq_natCast]
    omega
  have hback : 0 ≤ ntp2UnixDelta x ∧ ntp2UnixDelta x < 18446744073709551616 := by
    rw [ntp2UnixDelta, hepoch, hera]
    simp only [Int.ofNat_eq_natCast]
    omega
  constructor
  · simp only [hepoch, hera, nanoseconds2NtpValues, second, List.mem_cons, List.not_mem_nil, or_false,
      Int.ofNat_eq_natCast]
    rintro v (rfl | rfl | rfl | rfl | rfl | rfl | rfl) <;> omega
  · simp only [hepoch, hera, ntp2NanosecondsValues, second, List.mem_cons, List.not_mem_nil, or_false,
      Int.ofNat_eq_natCast]
    rintro v (rfl | rfl | rfl | rfl | rfl | rfl) <;> omega

theorem roundTrip_eq (h : Handled time) {x : UInt64} (hx : Stands x (ticks time)) :
    ntp2Unix x = if time < 0 then time else ofTicks (ticks time) := by
  obtain ⟨hlow, hhigh⟩ := h
  have hx : (x.toNat : Int) = ticks time % 18446744073709551616 := hx
  rw [ntp2Unix_toNat, ofTicks]
  generalize hz : ticks time = z at hx
  rw [ticks] at hz
  have hrange : 9223372036854775808 ≤ z ∧ z < 27670116110564327424 := by
    clear hx
    omega
  have hneg : time < 0 ↔ z < 9487534653230284800 := by
    clear hx
    omega
  by_cases htop : 9223372036854775808 ≤ x.toNat
  · obtain rfl : z = x.toNat := by omega
    rw [if_pos htop]
    by_cases hlt : x.toNat < 9487534653230284800
    · rw [if_pos hlt, if_pos (by omega)]
      omega
    · rw [if_neg hlt, if_neg (by omega)]
      rfl
  · obtain rfl : z = x.toNat + 18446744073709551616 := by omega
    rw [if_neg htop, if_neg (by omega), show ((x.toNat : Int) + 18446744073709551616 - 2208988800 * 4294967296) =
      x.toNat + 8959209420479266816 by omega]

/-- The ticks between two times, in nanoseconds times `2^32`, differ from the time between by less than one tick. -/
theorem ticks_sub (t u : Int) : ((ticks u - ticks t) * 1000000000 - (u - t) * 4294967296).natAbs ≤ 1000000000 := by
  rw [ticks, ticks]
  omega

theorem ntp_faithful {t u : Int} (ht : Handled t) (hu : Handled u) :
    ∃ x y, unix2Ntp t = .ok x ∧ unix2Ntp u = .ok y ∧ NoOverflow t x ∧ NoOverflow u y ∧
      (ntp2Unix x - t).natAbs ≤ 1 ∧ (t ≤ u → ntp2Unix x ≤ ntp2Unix y) ∧
      (((y - x).toNat : Int) * 1000000000 -
        (u - t + if u < t then 4294967296 * 1000000000 else 0) * 4294967296).natAbs ≤ 1000000000 + 4294967296 := by
  have htl := ht.1
  have hul := hu.1
  obtain ⟨x, hx, hsx⟩ := unix2Ntp_ok (show -2208988800000000000 ≤ t by omega)
  obtain ⟨y, hy, hsy⟩ := unix2Ntp_ok (show -2208988800000000000 ≤ u by omega)
  have hbx := roundTrip_eq ht hsx
  have hby := roundTrip_eq hu hsy
  have hback : ∀ time, 0 ≤ time - ofTicks (ticks time) ∧ time - ofTicks (ticks time) ≤ 1 := by
    intro time
    rw [ofTicks, ticks]
    omega
  refine ⟨x, y, hx, hy, noOverflow ht x, noOverflow hu y, ?_, ?_, ?_⟩
  · have := hback t
    rw [hbx]
    split <;> omega
  · intro hle
    have hmono : ofTicks (ticks t) ≤ ofTicks (ticks u) := by
      rw [ofTicks, ofTicks, ticks, ticks]
      omega
    have hpos : 0 ≤ u → 0 ≤ ofTicks (ticks u) := by
      rw [ofTicks, ticks]
      omega
    rw [hbx, hby]
    split <;> split <;> omega
  · have hx' : (x.toNat : Int) = ticks t % 18446744073709551616 := hsx
    have hy' : (y.toNat : Int) = ticks u % 18446744073709551616 := hsy
    have hdiff := ticks_sub t u
    have hrange : ∀ time, Handled time → 9223372036854775808 ≤ ticks time ∧ ticks time < 27670116110564327424 := by
      rintro time ⟨hlow, hhigh⟩
      rw [ticks]
      omega
    have htr := hrange t ht
    have hur := hrange u hu
    have horder : u < t → ticks u < ticks t := by
      rw [ticks, ticks]
      omega
    have horder' : t ≤ u → ticks t ≤ ticks u := by
      rw [ticks, ticks]
      omega
    have hsub : ((y - x).toNat : Int) = (ticks u - ticks t) % 18446744073709551616 := by
      rw [UInt64.toNat_sub]
      omega
    rw [hsub]
    generalize ticks u = zu at *
    generalize ticks t = zt at *
    split
    · rw [show (zu - zt) % 18446744073709551616 = zu - zt + 18446744073709551616 by omega]
      omega
    · rw [show (zu - zt) % 18446744073709551616 = zu - zt by omega]
      omega

/-- Half a second before the end of era 0 and half a second after it. -/
theorem ntp_faithful_eras : ∃ x y, unix2Ntp 2085978495500000000 = .ok x ∧ unix2Ntp 2085978496500000000 = .ok y ∧
    ntp2Unix x ≤ ntp2Unix y := by
  obtain ⟨x, y, hx, hy, -, -, -, hle, -⟩ :=
    ntp_faithful (t := 2085978495500000000) (u := 2085978496500000000) (by decide) (by decide)
  exact ⟨x, y, hx, hy, hle (by decide)⟩

/-! ## The middle 32 bits -/

/-- To the nearest multiple of `2^16`, up if there are two. -/
def roundMiddle (n : Nat) : Nat := (n + 32768) / 65536 * 65536

/-- A timestamp that is less than `2^47` ticks away from the base is restored, unless its low bits, which are cut
off, take it further back than that. -/
theorem ntpExtend_iff {b t : UInt64} {d : Int} (hlow : -140737488355328 < d) (hhigh : d < 140737488355328)
    (hd : (t.toNat : Int) = (b.toNat + d) % 18446744073709551616) :
    ntpExtend b (t &&& 0x0000FFFFFFFF0000) = .ok (t &&& 0xFFFFFFFFFFFF0000) ↔
      -140737488355328 < d - (t.toNat % 65536 : Nat) ∨
        (d - (t.toNat % 65536 : Nat) = -140737488355328 ∧ 140737488355328 ≤ b.toNat % 281474976710656) := by
  have hb := b.toNat_lt
  have hv : (t &&& 0x0000FFFFFFFF0000).toNat = t.toNat / 65536 % 4294967296 * 65536 := toNat_and_middle t
  have ht := toNat_and_upper t
  obtain ⟨y, hy, hsy⟩ := ntpExtend_ok (v := t &&& 0x0000FFFFFFFF0000) (c := b.toNat)
    (show Stands b b.toNat by rw [Stands]; omega) (by rw [hv]; omega) (by rw [hv]; omega)
  have hsy : (y.toNat : Int) = (b.toNat + nearest _) % 18446744073709551616 := hsy
  have heq : y = t &&& 0xFFFFFFFFFFFF0000 ↔ (y.toNat : Int) = (t.toNat / 65536 * 65536 : Nat) := by
    rw [← UInt64.toNat_inj, ht]
    omega
  rw [hy, Except.ok.injEq, heq, hsy, hv, nearest]
  omega

theorem ntpClamp32_iff (x max : UInt64) : (ntpClamp32 x max).toNat = middle (min (roundMiddle x.toNat) max.toNat) ↔
    x.toNat < 18446744073709518848 ∨ middle max.toNat = 0 := by
  have hx := x.toNat_lt
  have hm := max.toNat_lt
  rw [ntpClamp32_toNat, roundMiddle]
  simp only [middle]
  omega

theorem ntpClamp32_le_iff {x y : UInt64} (h : x ≤ y) : ntpClamp32 x maxDelay ≤ ntpClamp32 y maxDelay ↔
      y.toNat < 18446744073709518848 ∨ x.toNat < 32768 ∨ 18446744073709518848 ≤ x.toNat := by
  have hy := y.toNat_lt
  rw [UInt64.le_iff_toNat_le] at h ⊢
  rw [ntpClamp32_toNat, ntpClamp32_toNat, middle, middle, show maxDelay.toNat = 281474976710655 from rfl]
  omega

theorem ntp_shortened (b t x y max : UInt64) (d : Int) (hlow : -140737488355328 < d) (hhigh : d < 140737488355328)
    (ht : (t.toNat : Int) = (b.toNat + d) % 18446744073709551616) (hle : x ≤ y) :
    (ntpExtend b (t &&& 0x0000FFFFFFFF0000) = .ok (t &&& 0xFFFFFFFFFFFF0000) ↔
      -140737488355328 < d - (t.toNat % 65536 : Nat) ∨
        (d - (t.toNat % 65536 : Nat) = -140737488355328 ∧ 140737488355328 ≤ b.toNat % 281474976710656)) ∧
      ((ntpClamp32 x max).toNat = middle (min (roundMiddle x.toNat) max.toNat) ↔
        x.toNat < 18446744073709518848 ∨ middle max.toNat = 0) ∧
      (ntpClamp32 x maxDelay ≤ ntpClamp32 y maxDelay ↔
        y.toNat < 18446744073709518848 ∨ x.toNat < 32768 ∨ 18446744073709518848 ≤ x.toNat) :=
  ⟨ntpExtend_iff hlow hhigh ht, ntpClamp32_iff x max, ntpClamp32_le_iff hle⟩

theorem ntp_shortened_wrapped :
    ntpExtend 0x0002000000000000 (0x0001FFFFFFFF8000 &&& 0x0000FFFFFFFF0000) =
        .ok (0x0001FFFFFFFF8000 &&& 0xFFFFFFFFFFFF0000) ∧
      ntpClamp32 0x8000 maxDelay ≤ ntpClamp32 0x0001000000000000 maxDelay :=
  have h := ntp_shortened 0x0002000000000000 0x0001FFFFFFFF8000 0x8000 0x0001000000000000 maxDelay (-32768)
    (by decide) (by decide) (by decide) (by decide)
  ⟨h.1.mpr (.inl (by decide)), h.2.2.mpr (.inl (by decide))⟩

/-- The longest delay is rounded up to nothing. And at the far end of the range two timestamps have the same middle
bits: the one that is restored is the other one. -/
theorem ntpClamp32_overflow :
    ntpClamp32 0xFFFFFFFFFFFFFFFF maxDelay = 0 ∧ ntpClamp32 0x0000000100000000 maxDelay = 0x0000000100000000 ∧
      ntpExtend 0x0000800000000001 (0x0000000000000002 &&& 0x0000FFFFFFFF0000) = .ok 0x0001000000000000 := by
  decide

end Roc.Rtcp
