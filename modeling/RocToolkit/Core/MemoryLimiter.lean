import Mathlib.Algebra.BigOperators.Group.Multiset.Basic
import RocToolkit.Lib.Loop
import RocToolkit.Lib.Pool

/-!
# RocToolkit.Core.MemoryLimiter

`core::MemoryLimiter` and the arenas and pools that ask it (`LimitedArena`, `LimitedPool`): any number of threads
allocate and free memory, one atomic operation a step. What is compared with the limit is a sum of machine words, so
a request that takes it past the end of its range passes. A block has the size that was acquired for it.
-/

namespace Roc.Core.MemoryLimiter

open Multiset Pool

inductive Pc where
  | acquireLoad (numBytes : UInt64)
  | acquireCas (numBytes current : UInt64)
  -- the limiter has agreed, and the underlying arena is asked
  | allocate (numBytes : UInt64)
  | release (numBytes : UInt64)
deriving DecidableEq, Repr

structure Memory where
  bytesAcquired : UInt64 := 0
  -- the blocks that users have, by their sizes
  blocks : Multiset UInt64 := 0

inductive Entry where
  | allocate (numBytes : UInt64)
  | deallocate (numBytes : UInt64)

def enter : Entry → Memory → Option (Memory × Pc)
  | .allocate n, s => if n = 0 then none else some (s, .acquireLoad n)
  | .deallocate n, s => if n ∈ s.blocks then some ({ s with blocks := s.blocks.erase n }, .release n) else none

/-- One atomic operation; `luck` is the answer of the underlying arena. -/
def advance (maxBytes : UInt64) (luck : Bool) (s : Memory) : Pc → Option (Memory × Option Pc)
  | .acquireLoad n =>
    if maxBytes > 0 ∧ s.bytesAcquired + n > maxBytes then some (s, none)
    else some (s, some (.acquireCas n s.bytesAcquired))
  | .acquireCas n current =>
    if s.bytesAcquired = current then some ({ s with bytesAcquired := current + n }, some (.allocate n))
    else some (s, some (.acquireLoad n))
  | .allocate n => if luck then some ({ s with blocks := n ::ₘ s.blocks }, none) else some (s, some (.release n))
  | .release n =>
    -- more bytes than were acquired are a panic
    if s.bytesAcquired - n > s.bytesAcquired - n + n then none
    else some ({ s with bytesAcquired := s.bytesAcquired - n }, none)

abbrev Calls := Pool Memory Pc

def Step (maxBytes : UInt64) : Calls → Pool.Label Entry Bool Pc → Calls → Prop := Pool.Step enter (advance maxBytes)

def Pc.held : Pc → Nat
  | .acquireLoad _ | .acquireCas _ _ => 0
  | .allocate n | .release n => n.toNat

def outstanding (c : Calls) : Nat := (c.shared.blocks.map UInt64.toNat).sum + (c.calls.map Pc.held).sum

def Right (maxBytes : UInt64) (c : Calls) : Prop :=
  c.shared.bytesAcquired.toNat = outstanding c ∧ outstanding c ≤ maxBytes.toNat

def Fits (c : Calls) : Pool.Label Entry Bool Pc → Prop
  | .advance _ (.acquireCas n current) => c.shared.bytesAcquired = current → current.toNat + n.toNat < 18446744073709551616
  | _ => True

structure Inv (maxBytes : UInt64) (c : Calls) : Prop where
  right : Right maxBytes c
  checked : ∀ n current, .acquireCas n current ∈ c.calls → current + n ≤ maxBytes

variable {maxBytes n : UInt64} {c c' : Calls} {l : Pool.Label Entry Bool Pc} {s s' : Memory} {pc pc' : Pc}
  {next : Option Pc} {calls rest : Multiset Pc}

theorem outstanding_cons (s : Memory) (pc : Pc) (rest : Multiset Pc) :
    outstanding ⟨s, pc ::ₘ rest⟩ = outstanding ⟨s, rest⟩ + pc.held := by
  simp only [outstanding, map_cons, sum_cons]
  omega

theorem Inv.keep {calls' : Multiset Pc} (h : Inv maxBytes ⟨s, calls⟩)
    (hbytes : s'.bytesAcquired = s.bytesAcquired) (hsum : outstanding ⟨s', calls'⟩ = outstanding ⟨s, calls⟩)
    (hnew : ∀ n current, .acquireCas n current ∈ calls' → .acquireCas n current ∈ calls ∨ current + n ≤ maxBytes) :
    Inv maxBytes ⟨s', calls'⟩ := by
  refine ⟨?_, fun n current hmem => (hnew n current hmem).elim (h.checked n current) id⟩
  unfold Right
  rw [hsum]
  exact ⟨(congrArg UInt64.toNat hbytes).trans h.right.1, h.right.2⟩

theorem Inv.move (h : Inv maxBytes ⟨s, pc ::ₘ rest⟩)
    (hheld : next.elim 0 Pc.held = pc.held) (hnew : ∀ n current, next = some (.acquireCas n current) → current + n ≤ maxBytes) :
    Inv maxBytes ⟨s, Pool.resume next rest⟩ := by
  refine h.keep rfl ?_ fun n current hmem => ?_
  · rw [outstanding_cons, ← hheld]
    cases next with
    | none => rfl
    | some next => exact outstanding_cons s next rest
  · rcases mem_resume hmem with he | hmem
    · exact .inr (hnew n current he)
    · exact .inl (mem_cons_of_mem hmem)

theorem Inv.enter {e : Entry} (h : Inv maxBytes ⟨s, calls⟩)
    (he : enter e s = some (s', pc)) : Inv maxBytes ⟨s', pc ::ₘ calls⟩ := by
  cases e with
  | allocate n =>
    obtain ⟨-, ⟨⟩⟩ := Option.ite_none_left_eq_some.mp he
    refine h.keep rfl (outstanding_cons _ _ _) fun m current hmem => .inl ?_
    exact (mem_cons.mp hmem).resolve_left nofun
  | deallocate n =>
    obtain ⟨hn, ⟨⟩⟩ := Option.ite_none_right_eq_some.mp he
    refine h.keep rfl ?_ fun m current hmem => .inl ((mem_cons.mp hmem).resolve_left nofun)
    have hblocks := congrArg (fun blocks => (blocks.map UInt64.toNat).sum) (cons_erase hn)
    simp only [map_cons, sum_cons] at hblocks
    rw [outstanding_cons, outstanding, outstanding, ← hblocks]
    simp only [Pc.held]
    omega

theorem Inv.acquired_eq (h : Inv maxBytes ⟨s, pc ::ₘ rest⟩) : s.bytesAcquired.toNat = outstanding ⟨s, rest⟩ + pc.held :=
  h.right.1.trans (outstanding_cons s pc rest)

theorem Inv.release (h : Inv maxBytes ⟨s, .release n ::ₘ rest⟩)
    (luck : Bool) : advance maxBytes luck s (.release n) = some ({ s with bytesAcquired := s.bytesAcquired - n }, none) ∧
      (s.bytesAcquired - n).toNat + n.toNat = s.bytesAcquired.toNat := by
  have hle : n ≤ s.bytesAcquired := by
    rw [UInt64.le_iff_toNat_le, h.acquired_eq]
    exact Nat.le_add_left _ _
  have hsub := UInt64.toNat_sub_of_le _ _ hle
  rw [UInt64.le_iff_toNat_le] at hle
  refine ⟨?_, by omega⟩
  rw [advance, UInt64.sub_add_cancel, if_neg]
  rw [gt_iff_lt, UInt64.lt_iff_toNat_lt]
  omega

/-- Every step keeps the count, unless it grants a request whose sum has wrapped. -/
theorem Inv.step (hmax : maxBytes ≠ 0) (h : Inv maxBytes c) (hs : Step maxBytes c l c') :
    (Fits c l → Inv maxBytes c') ∧ (Right maxBytes c' → Fits c l) := by
  cases hs with
  | enter he => exact ⟨fun _ => h.enter he, fun _ => trivial⟩
  | @advance s s' luck pc next rest ha =>
    cases pc with
    | acquireLoad n =>
      refine ⟨fun _ => ?_, fun _ => trivial⟩
      simp only [advance] at ha
      split at ha
      · cases ha
        exact h.move rfl nofun
      · next hle =>
        cases ha
        refine h.move rfl fun m current he => ?_
        cases he
        exact UInt64.not_lt.mp (not_and.mp hle (UInt64.pos_iff_ne_zero.mpr hmax))
    | acquireCas n current =>
      simp only [advance] at ha
      split at ha
      · next hsame =>
        cases ha
        -- the sum as it is compared, and as it is
        have hsum := UInt64.toNat_add current n
        have hnew : outstanding ⟨{ s with bytesAcquired := current + n }, .allocate n ::ₘ rest⟩ =
            current.toNat + n.toNat := by
          rw [outstanding_cons, ← hsame, h.acquired_eq]
          rfl
        refine ⟨fun hfits => ⟨?_, fun m current' hmem => ?_⟩, fun hright _ => ?_⟩
        · have hchecked := h.checked n current (mem_cons_self _ _)
          have hlt := Nat.mod_eq_of_lt (hfits hsame)
          rw [UInt64.le_iff_toNat_le, hsum, hlt] at hchecked
          refine ⟨?_, ?_⟩
          · exact hsum.trans (hlt.trans hnew.symm)
          · exact hnew.symm ▸ hchecked
        · rcases mem_cons.mp hmem with he | hmem
          · cases he
          · exact h.checked m current' (mem_cons_of_mem hmem)
        · have heq := hsum.symm.trans (hright.1.trans hnew)
          exact heq ▸ Nat.mod_lt _ (by decide)
      · next hother =>
        cases ha
        exact ⟨fun _ => h.move rfl nofun, fun _ hsame => absurd hsame hother⟩
    | allocate n =>
      refine ⟨fun _ => ?_, fun _ => trivial⟩
      simp only [advance] at ha
      split at ha
      · cases ha
        refine h.keep rfl ?_ fun _ _ hmem => .inl (mem_cons_of_mem hmem)
        rw [outstanding_cons]
        simp only [outstanding, Pool.resume, map_cons, sum_cons, Pc.held]
        omega
      · cases ha
        exact h.move rfl nofun
    | release n =>
      refine ⟨fun _ => ?_, fun _ => trivial⟩
      obtain ⟨hgive, hback⟩ := h.release luck
      cases hgive.symm.trans ha
      have hlimit := h.right.2
      rw [outstanding_cons] at hlimit
      refine ⟨⟨?_, ?_⟩, fun m current hmem => h.checked m current (mem_cons_of_mem hmem)⟩
      · exact Nat.add_right_cancel (hback.trans h.acquired_eq)
      · exact Nat.le_trans (Nat.le_add_right _ _) hlimit

/-- While no request that is granted wraps the sum, the bytes are counted and within the limit, a request fails only if
it would exceed the limit, and a release gives its bytes back. The first request that wraps the sum breaks the count. -/
theorem limit_iff (maxBytes : UInt64) (hmax : maxBytes ≠ 0) (c : Calls)
    (hc : Reaches (fun c => c = ⟨{}, 0⟩) (Step maxBytes) Fits c) :
    Right maxBytes c ∧
      (∀ n rest luck s, c.calls = .acquireLoad n ::ₘ rest → advance maxBytes luck c.shared (.acquireLoad n) = some (s, none) →
        maxBytes.toNat < outstanding c + n.toNat) ∧
      (∀ n rest luck, c.calls = .release n ::ₘ rest → ∃ s, advance maxBytes luck c.shared (.release n) = some (s, none) ∧
        s.bytesAcquired.toNat + n.toNat = c.shared.bytesAcquired.toNat) ∧
      ∀ l c', Step maxBytes c l c' → (Right maxBytes c' ↔ Fits c l) := by
  have h : Inv maxBytes c := by
    refine hc.invariant ?_ fun c l c' h hfits hs => (h.step hmax hs).1 hfits
    rintro c rfl
    exact ⟨⟨rfl, Nat.zero_le _⟩, nofun⟩
  refine ⟨h.right, ?_, ?_, fun l c' hs => ⟨(h.step hmax hs).2, fun hfits => ((h.step hmax hs).1 hfits).right⟩⟩
  · intro n rest luck s _ ha
    rw [advance] at ha
    split at ha
    · next hgt =>
      have hlt := UInt64.lt_iff_toNat_lt.mp hgt.2
      rw [UInt64.toNat_add, h.right.1] at hlt
      exact Nat.lt_of_lt_of_le hlt (Nat.mod_le _ _)
    · cases ha
  · intro n rest luck hcalls
    obtain ⟨s, calls⟩ := c
    obtain rfl : calls = _ := hcalls
    obtain ⟨hgive, hback⟩ := h.release luck
    exact ⟨_, hgive, hback⟩

abbrev Reached (maxBytes : UInt64) (allowed : Calls → Pool.Label Entry Bool Pc → Prop) : Calls → Prop :=
  Reaches (fun c => c = ⟨{}, 0⟩) (Step maxBytes) allowed

variable {allowed : Calls → Pool.Label Entry Bool Pc → Prop}

theorem Reached.advance (h : Reached maxBytes allowed ⟨s, {pc}⟩) (hok : allowed ⟨s, {pc}⟩ (.advance true pc))
    (ha : advance maxBytes true s pc = some (s', some pc')) : Reached maxBytes allowed ⟨s', {pc'}⟩ :=
  h.step hok (.advance ha)

theorem Reached.leave (h : Reached maxBytes allowed ⟨s, {pc}⟩) (hok : allowed ⟨s, {pc}⟩ (.advance true pc))
    (ha : MemoryLimiter.advance maxBytes true s pc = some (s', none)) : Reached maxBytes allowed ⟨s', 0⟩ :=
  h.step hok (.advance ha)

theorem limit_iff_ten : Right 10 ⟨{ bytesAcquired := 10 }, {.allocate 10}⟩ := by
  have hten : Reached 10 Fits ⟨{}, {.acquireLoad 10}⟩ :=
    .step (a := .enter (.allocate 10)) (.start rfl) trivial (.enter rfl)
  exact (limit_iff 10 (by decide) _ ((hten.advance trivial rfl).advance (fun _ => by decide) rfl)).1

/-- Ten bytes are acquired of ten; a request for all but five bytes of the range is granted as well, and the count
is five. -/
theorem wrapped_granted : ∃ c, Reached 10 (fun _ _ => True) c ∧ c.shared.bytesAcquired = 5 ∧
    outstanding c = 18446744073709551621 ∧ ¬ Right 10 c := by
  have hten : Reached 10 (fun _ _ => True) ⟨{}, {.acquireLoad 10}⟩ :=
    .step (.start rfl) trivial (.enter (e := .allocate 10) rfl)
  have hblock := ((hten.advance trivial rfl).advance trivial rfl).leave trivial rfl
  have hmore := hblock.step trivial (.enter (e := .allocate (-5)) rfl)
  exact ⟨_, (Reached.advance hmore trivial rfl).advance trivial rfl, rfl, rfl, fun h => absurd h.1 (by decide)⟩

/-! ## Without a condition -/

theorem outstanding_resume : outstanding ⟨s, Pool.resume next rest⟩ = outstanding ⟨s, rest⟩ + next.elim 0 Pc.held := by
  cases next with
  | none => rfl
  | some next => exact outstanding_cons s next rest

theorem outstanding_enter {e : Entry} (he : enter e s = some (s', pc)) :
    s'.bytesAcquired = s.bytesAcquired ∧ outstanding ⟨s', pc ::ₘ calls⟩ = outstanding ⟨s, calls⟩ := by
  rw [outstanding_cons]
  cases e with
  | allocate n =>
    obtain ⟨-, ⟨⟩⟩ := Option.ite_none_left_eq_some.mp he
    exact ⟨rfl, rfl⟩
  | deallocate n =>
    obtain ⟨hn, ⟨⟩⟩ := Option.ite_none_right_eq_some.mp he
    have hblocks := congrArg (fun blocks => (blocks.map UInt64.toNat).sum) (cons_erase hn)
    simp only [map_cons, sum_cons] at hblocks
    refine ⟨rfl, ?_⟩
    rw [outstanding, outstanding, ← hblocks]
    simp only [Pc.held]
    omega

theorem balanced_step (h : c.shared.bytesAcquired = UInt64.ofNat (outstanding c)) (hs : Step maxBytes c l c') :
    c'.shared.bytesAcquired = UInt64.ofNat (outstanding c') := by
  cases hs with
  | enter he =>
    obtain ⟨hbytes, hsum⟩ := outstanding_enter he
    exact hbytes.trans (h.trans (congrArg UInt64.ofNat hsum.symm))
  | @advance s s' luck pc next rest ha =>
    rw [outstanding_cons, UInt64.ofNat_add] at h
    rw [outstanding_resume, UInt64.ofNat_add]
    cases pc with
    | acquireLoad n =>
      simp only [MemoryLimiter.advance] at ha
      split at ha <;> cases ha <;> exact h
    | acquireCas n current =>
      simp only [MemoryLimiter.advance] at ha
      split at ha
      · next hsame =>
        cases ha
        rw [← hsame, h]
        simp [Pc.held, outstanding]
      · cases ha
        exact h
    | allocate n =>
      simp only [MemoryLimiter.advance] at ha
      split at ha
      · cases ha
        have hblocks : outstanding ⟨{ s with blocks := n ::ₘ s.blocks }, rest⟩ = outstanding ⟨s, rest⟩ + n.toNat := by
          simp only [outstanding, map_cons, sum_cons]
          omega
        rw [hblocks, UInt64.ofNat_add]
        exact h.trans (UInt64.add_zero _).symm
      · cases ha
        exact h
    | release n =>
      simp only [MemoryLimiter.advance] at ha
      split at ha
      · cases ha
      · cases ha
        have hback : s.bytesAcquired - n = UInt64.ofNat (outstanding ⟨s, rest⟩) := by
          rw [h, Pc.held, UInt64.ofNat_toNat]
          exact UInt64.add_sub_cancel _ _
        simpa [outstanding] using hback

/-- In every run, with any sizes and with or without a limit, `bytes_acquired_` is the sum of what is outstanding up to
a multiple of the range of `size_t`. So it is 0 when nothing is outstanding, as the destructor checks, and a release
panics at most while more than the range is outstanding. -/
theorem balanced_of_reaches (maxBytes : UInt64) (c : Calls) (h : Reached maxBytes (fun _ _ => True) c) :
    c.shared.bytesAcquired.toNat = outstanding c % 18446744073709551616 ∧
      (outstanding c = 0 → c.shared.bytesAcquired = 0) ∧
      ∀ n rest luck, c.calls = .release n ::ₘ rest → outstanding c < 18446744073709551616 →
        ∃ s, advance maxBytes luck c.shared (.release n) = some (s, none) := by
  have hword : c.shared.bytesAcquired = UInt64.ofNat (outstanding c) := by
    refine h.invariant (I := fun c => c.shared.bytesAcquired = UInt64.ofNat (outstanding c)) ?_
      fun _ _ _ hc _ hs => balanced_step hc hs
    rintro _ rfl
    rfl
  have hsum : c.shared.bytesAcquired.toNat = outstanding c % 18446744073709551616 := by
    rw [hword]
    exact UInt64.toNat_ofNat
  refine ⟨hsum, fun hzero => by rw [hword, hzero]; rfl, fun n rest luck hcalls hlt => ?_⟩
  rw [Nat.mod_eq_of_lt hlt] at hsum
  have hle : n ≤ c.shared.bytesAcquired := by
    rw [UInt64.le_iff_toNat_le, hsum, outstanding, hcalls, map_cons, sum_cons, Pc.held]
    omega
  have hsub := UInt64.toNat_sub_of_le _ _ hle
  refine ⟨_, if_neg ?_⟩
  rw [UInt64.sub_add_cancel, gt_iff_lt, UInt64.lt_iff_toNat_lt, hsub]
  omega

theorem balanced_unlimited : ∃ c : Calls, outstanding c = 10 ∧
    c.shared.bytesAcquired.toNat = outstanding c % 18446744073709551616 := by
  have hten : Reached 0 (fun _ _ => True) ⟨{}, {.acquireLoad 10}⟩ :=
    .step (.start rfl) trivial (.enter (e := .allocate 10) rfl)
  have hcas := (hten.advance trivial rfl).advance trivial rfl
  exact ⟨_, rfl, (balanced_of_reaches 0 _ hcas).1⟩

end Roc.Core.MemoryLimiter
