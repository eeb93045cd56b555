import RocToolkit.Lib.Loop
import RocToolkit.Lib.Pool

/-!
# RocToolkit.Core.Seqlock

`core::SeqlockImpl`, with any number of threads that store and load: each access to the version and each byte of a
copy is a step, in one order for all threads, as the fences are there for. Nothing keeps a load from copying bytes
that a store is changing. A version that is odd while it does, and the same before and after, is what tells the load
that the bytes belong together.
-/

namespace Roc.Core.Seqlock

open Pool
open Multiset (mem_cons mem_cons_self mem_cons_of_mem)

structure Loaded where
  since : Nat
  value : List UInt8
  ver : UInt32
deriving DecidableEq, Repr

structure Lock where
  ver : UInt32 := 0
  value : List UInt8
  -- the version without the end of its range, and the values with their versions: what the proof counts
  total : Nat := 0
  stored : List (List UInt8 × UInt32)
  loaded : List Loaded := []
deriving DecidableEq, Repr

inductive Pc where
  | tryStore (new : List UInt8)
  | exchange (new : List UInt8) (ver0 : UInt32)
  | exclusiveStore (new : List UInt8)
  | mark (new : List UInt8) (ver0 : UInt32)
  -- `volatile_copy`, and then the new version
  | copyIn (new : List UInt8) (ver0 : UInt32) (copied : Nat)
  -- with the attempts that are left after this one; `wait_load` has no bound
  | tryLoad (left : Option Nat) (since : Nat)
  | copyOut (left : Option Nat) (since : Nat) (ver0 : UInt32) (begun : Nat) (bytes : List UInt8)
deriving DecidableEq, Repr

inductive Entry where
  | tryStore (new : List UInt8)
  | exclusiveStore (new : List UInt8)
  | tryLoadRepeat
  | waitLoad

def enter : Entry → Lock → Option (Lock × Pc)
  | .tryStore new, s => if new.length = s.value.length then some (s, .tryStore new) else none
  | .exclusiveStore new, s => if new.length = s.value.length then some (s, .exclusiveStore new) else none
  | .tryLoadRepeat, s => some (s, .tryLoad (some 2) (s.stored.length - 1))
  | .waitLoad, s => some (s, .tryLoad none (s.stored.length - 1))

def retry (since : Nat) : Option Nat → Option Pc
  | none => some (.tryLoad none since)
  | some 0 => none
  | some (n + 1) => some (.tryLoad (some n) since)

def advance (_ : Unit) (s : Lock) : Pc → Option (Lock × Option Pc)
  | .tryStore new => if s.ver &&& 1 ≠ 0 then some (s, none) else some (s, some (.exchange new s.ver))
  | .exchange new ver0 =>
    if s.ver = ver0 then some ({ s with ver := ver0 + 1, total := s.total + 1 }, some (.copyIn new ver0 0))
    else some (s, none)
  | .exclusiveStore new => some (s, some (.mark new s.ver))
  | .mark new ver0 => some ({ s with ver := ver0 + 1, total := s.total + 1 }, some (.copyIn new ver0 0))
  | .copyIn new ver0 n =>
    match new[n]? with
    | some byte => some ({ s with value := s.value.set n byte }, some (.copyIn new ver0 (n + 1)))
    | none =>
      some ({ s with ver := ver0 + 2, total := s.total + 1, stored := s.stored ++ [(new, ver0 + 2)] }, none)
  | .tryLoad left since => some (s, some (.copyOut left since s.ver s.total []))
  | .copyOut left since ver0 begun bytes =>
    match s.value[bytes.length]? with
    | some byte => some (s, some (.copyOut left since ver0 begun (bytes ++ [byte])))
    | none =>
      if ver0 &&& 1 = 0 ∧ ver0 = s.ver then some ({ s with loaded := s.loaded ++ [⟨since, bytes, s.ver⟩] }, none)
      else some (s, retry since left)

abbrev Calls := Pool Lock Pc

def Pc.isCopying : Pc → Bool
  | .copyIn .. => true
  | _ => false

def Pc.isExclusive : Pc → Bool
  | .exclusiveStore _ | .mark .. => true
  | _ => false

def Pc.isStore : Pc → Bool
  | .tryLoad .. | .copyOut .. => false
  | _ => true

/-- `exclusive_store` is not called beside other stores, and there are less than 2^31 stores during one attempt to
load. -/
def Allowed (c : Calls) : Label Entry Unit Pc → Prop
  | .enter (.tryStore _) => count Pc.isExclusive c.calls = 0
  | .enter (.exclusiveStore _) => count Pc.isStore c.calls = 0
  | .advance _ (.copyOut _ _ _ begun _) => c.shared.total < begun + 4294967296
  | _ => True

/-- Runs from a lock with some value. -/
def Reached : Calls → Prop :=
  Reaches (fun c => ∃ value, c = ⟨{ value, stored := [(value, 0)] }, 0⟩) (Step enter advance) Allowed

/-! ## What a call knows -/

def Pc.Knows (s : Lock) : Pc → Prop
  | .tryStore new | .exclusiveStore new => new.length = s.value.length
  | .exchange new ver0 => new.length = s.value.length ∧ ver0 &&& 1 = 0
  | .mark new ver0 => new.length = s.value.length ∧ ver0 = s.ver
  | .copyIn new ver0 n =>
    new.length = s.value.length ∧ ver0 + 1 = s.ver ∧ n ≤ new.length ∧ s.value.take n = new.take n
  | .tryLoad _ since => since < s.stored.length
  | .copyOut _ since ver0 begun bytes => since < s.stored.length ∧ ver0 = .ofNat begun ∧ begun ≤ s.total ∧
    bytes.length ≤ s.value.length ∧ (begun = s.total → s.total % 2 = 0 → bytes = s.value.take bytes.length)

/-- While `exclusive_store` has not begun to copy, there is no other store. -/
def Serial (calls : Multiset Pc) : Prop := 0 < count Pc.isExclusive calls → count Pc.isStore calls ≤ 1

structure Inv (s : Lock) (calls : Multiset Pc) : Prop where
  ver : s.ver = .ofNat s.total
  total : s.total + 2 = 2 * s.stored.length + count Pc.isCopying calls
  copying : count Pc.isCopying calls ≤ 1
  idle : count Pc.isCopying calls = 0 → s.stored.getLast? = some (s.value, s.ver)
  knows : ∀ pc ∈ calls, pc.Knows s
  loaded : ∀ l ∈ s.loaded, ∃ k, l.since ≤ k ∧ s.stored[k]? = some (l.value, l.ver)

variable {s s' : Lock} {pc : Pc} {next : Option Pc} {calls rest : Multiset Pc} {new : List UInt8} {ver0 : UInt32} {n : Nat}

/-- The last bit of the version says whether a store is going on. -/
theorem even_iff (h : s.ver = .ofNat s.total) : s.ver &&& 1 = 0 ↔ s.total % 2 = 0 := by
  rw [← UInt32.toNat_inj, UInt32.toNat_and, h]
  simp only [UInt32.toNat_ofNat', UInt32.toNat_one, UInt32.toNat_zero, Nat.and_one_is_mod]
  omega

theorem not_of_count {p : Pc → Bool} (h : count p calls = 0) (hpc : pc ∈ calls) : p pc = false := by
  have := Multiset.countP_eq_zero.mp h pc hpc
  simpa using this

/-- Nothing that a load or a store that has not begun knows gets lost while the version grows, or while bytes change
under an odd version. -/
theorem Pc.Knows.keep (h : pc.Knows s) (hcopying : pc.isCopying = false) (hexclusive : pc.isExclusive = false)
    (hlength : s'.value.length = s.value.length) (hstored : s.stored.length ≤ s'.stored.length)
    (htotal : s.total ≤ s'.total) (hsame : s'.total = s.total → s.total % 2 = 0 → s'.value = s.value) :
    pc.Knows s' := by
  cases pc with
  | tryStore new => exact h.trans hlength.symm
  | exchange new ver0 => exact ⟨h.1.trans hlength.symm, h.2⟩
  | exclusiveStore new => cases hexclusive
  | mark new ver0 => cases hexclusive
  | copyIn new ver0 n => cases hcopying
  | tryLoad left since => exact Nat.lt_of_lt_of_le h hstored
  | copyOut left since ver0 begun bytes =>
    obtain ⟨hsince, hver, hbegun, hbytes, hcopied⟩ := h
    refine ⟨Nat.lt_of_lt_of_le hsince hstored, hver, hbegun.trans htotal, hlength ▸ hbytes, fun he heven => ?_⟩
    have hst : s'.total = s.total := by omega
    rw [hst] at heven
    rw [hsame hst heven]
    exact hcopied (by omega) heven

theorem advance_kind {u : Unit} (h : advance u s pc = some (s', next)) :
    weight Pc.isStore next ≤ pc.isStore.toNat ∧ weight Pc.isExclusive next ≤ pc.isExclusive.toNat := by
  cases pc with
  | copyOut left since ver0 begun bytes =>
    simp only [advance] at h
    split at h
    · cases h
      exact ⟨Nat.le_refl _, Nat.le_refl _⟩
    · split at h
      · cases h
        exact ⟨Nat.le_refl _, Nat.le_refl _⟩
      · cases h
        rcases left with _ | _ | n <;> exact ⟨Nat.le_refl _, Nat.le_refl _⟩
  | _ =>
    simp only [advance] at h
    try split at h
    all_goals
      cases h
      simp [weight, Pc.isStore, Pc.isExclusive]

theorem Serial.advance {u : Unit} (h : Serial (pc ::ₘ rest)) (ha : advance u s pc = some (s', next)) :
    Serial (resume next rest) := by
  have hkind := advance_kind ha
  unfold Serial at h ⊢
  simp only [count_cons, count_resume] at h ⊢
  omega

/-- A store that changes something is the only one, and what the other calls know stays true. -/
theorem Inv.alone (h : Inv s (pc ::ₘ rest)) (hserial : Serial (pc ::ₘ rest)) (hstore : pc.isStore = true)
    (hcopying : pc.isCopying = true ∨ s.total % 2 = 0) :
    count Pc.isCopying rest = 0 ∧ ∀ s' : Lock, s'.value.length = s.value.length →
      s.stored.length ≤ s'.stored.length → s.total ≤ s'.total →
      (s'.total = s.total → s.total % 2 = 0 → s'.value = s.value) → ∀ other ∈ rest, other.Knows s' := by
  have hcount := h.copying
  have htotal := h.total
  simp only [count_cons] at hcount htotal
  have hrest : count Pc.isCopying rest = 0 := by
    rcases hcopying with hpc | heven
    · rw [hpc, Bool.toNat_true] at hcount
      omega
    · omega
  refine ⟨hrest, fun s' hlength hstored hle hsame other hother => ?_⟩
  refine (h.knows other (mem_cons_of_mem hother)).keep (not_of_count hrest hother) ?_ hlength hstored hle hsame
  by_contra hex
  have hex : other.isExclusive = true := by simpa using hex
  have hone := hserial (Multiset.countP_pos.mpr ⟨other, mem_cons_of_mem hother, hex⟩)
  rw [count_cons, hstore, Bool.toNat_true] at hone
  have hnone := not_of_count (show count Pc.isStore rest = 0 by omega) hother
  cases other <;> simp_all [Pc.isExclusive, Pc.isStore]

/-! ## Steps -/

/-- A step that changes nothing but what loads have returned. -/
theorem Inv.still {loaded : List Loaded} (h : Inv s (pc ::ₘ rest)) (hcopying : pc.isCopying = false)
    (hnext : ∀ pc', next = some pc' → pc'.Knows s ∧ pc'.isCopying = false)
    (hloaded : ∀ l ∈ loaded, ∃ k, l.since ≤ k ∧ s.stored[k]? = some (l.value, l.ver)) :
    Inv { s with loaded } (resume next rest) := by
  have hcount : count Pc.isCopying (resume next rest) = count Pc.isCopying (pc ::ₘ rest) := by
    rw [count_resume, count_cons, hcopying]
    cases next with
    | none => rfl
    | some pc' => rw [weight, (hnext pc' rfl).2]
  refine ⟨h.ver, hcount ▸ h.total, hcount ▸ h.copying, hcount ▸ h.idle, fun other hother => ?_, hloaded⟩
  have hknows : other.Knows s := by
    rcases mem_resume hother with he | hrest
    · exact (hnext other he).1
    · exact h.knows other (mem_cons_of_mem hrest)
  cases other <;> exact hknows

/-- A store begins: the version becomes odd. -/
theorem Inv.begin (h : Inv s (pc ::ₘ rest)) (hserial : Serial (pc ::ₘ rest))
    (hstore : pc.isStore = true) (hcopying : pc.isCopying = false) (heven : s.total % 2 = 0) (hver : s.ver = ver0)
    (hlength : new.length = s.value.length) :
    Inv { s with ver := ver0 + 1, total := s.total + 1 } (.copyIn new ver0 0 ::ₘ rest) := by
  obtain ⟨hrest, hother⟩ := h.alone hserial hstore (.inr heven)
  have htotal := h.total
  rw [count_cons, hcopying, hrest] at htotal
  have hcount : count Pc.isCopying (.copyIn new ver0 0 ::ₘ rest) = 1 := by rw [count_cons, hrest]; rfl
  refine ⟨?_, ?_, hcount.le, fun hzero => (nomatch hcount.symm.trans hzero), fun other hmem => ?_, h.loaded⟩
  · rw [← hver, h.ver, UInt32.ofNat_add]
    rfl
  · rw [hcount]
    exact congrArg (· + 1) htotal
  · rcases mem_cons.mp hmem with rfl | hmem
    · exact ⟨hlength, rfl, Nat.zero_le _, rfl⟩
    · refine hother _ ?_ ?_ ?_ ?_ other hmem <;> simp

theorem Inv.copy {byte : UInt8} (h : Inv s (.copyIn new ver0 n ::ₘ rest))
    (hserial : Serial (.copyIn new ver0 n ::ₘ rest)) (hbyte : new[n]? = some byte) :
    Inv { s with value := s.value.set n byte } (.copyIn new ver0 (n + 1) ::ₘ rest) := by
  obtain ⟨hrest, hother⟩ := h.alone hserial rfl (.inl rfl)
  obtain ⟨hlength, hver, -, htake⟩ := h.knows _ (mem_cons_self ..)
  obtain ⟨hlt, rfl⟩ := List.getElem?_eq_some_iff.mp hbyte
  have htotal := h.total
  rw [count_cons, hrest] at htotal
  have hcount : count Pc.isCopying (.copyIn new ver0 (n + 1) ::ₘ rest) = 1 := by rw [count_cons, hrest]; rfl
  refine ⟨h.ver, by rw [hcount]; exact htotal, hcount.le, fun hzero => (nomatch hcount.symm.trans hzero),
    fun other hmem => ?_, h.loaded⟩
  rcases mem_cons.mp hmem with rfl | hmem
  · have hlt' : n < s.value.length := hlt.trans_eq hlength
    refine ⟨by simpa using hlength, hver, hlt, ?_⟩
    rw [List.take_succ_eq_append_getElem (by simpa using hlt'), List.take_succ_eq_append_getElem hlt, ← htake,
      List.take_set_of_le (Nat.le_refl n), List.getElem_set_self]
  · refine hother { s with value := s.value.set n new[n] } (by simp) (Nat.le_refl _) (Nat.le_refl _)
      (fun _ heven => ?_) other hmem
    rw [Pc.isCopying, Bool.toNat_true] at htotal
    omega

/-- A store ends: its value is there as a whole, and the version is even again. -/
theorem Inv.publish (h : Inv s (.copyIn new ver0 n ::ₘ rest))
    (hserial : Serial (.copyIn new ver0 n ::ₘ rest)) (hend : new[n]? = none) :
    Inv { s with ver := ver0 + 2, total := s.total + 1, stored := s.stored ++ [(new, ver0 + 2)] } rest := by
  obtain ⟨hrest, hother⟩ := h.alone hserial rfl (.inl rfl)
  obtain ⟨hlength, hver, hle, htake⟩ := h.knows _ (mem_cons_self ..)
  have hn : n = new.length := hle.antisymm (List.getElem?_eq_none_iff.mp hend)
  have hvalue : s.value = new := by rwa [hn, hlength, List.take_length, ← hlength, List.take_length] at htake
  have htotal : s.total + 2 = 2 * s.stored.length + (0 + 1) := by
    have := h.total
    rwa [count_cons, hrest] at this
  refine ⟨?_, ?_, hrest.trans_le (Nat.zero_le _), fun _ => ?_, fun other hmem => ?_, fun l hl => ?_⟩
  · show ver0 + 2 = UInt32.ofNat (s.total + 1)
    rw [UInt32.ofNat_add, ← h.ver, ← hver, UInt32.add_assoc]
    rfl
  · rw [hrest, List.length_append, List.length_singleton]
    show s.total + 1 + 2 = _
    omega
  · rw [List.getLast?_concat, hvalue]
  · refine hother _ ?_ ?_ ?_ ?_ other hmem <;> simp
  · obtain ⟨k, hk, hstored⟩ := h.loaded l hl
    exact ⟨k, hk, List.getElem?_append_left (List.getElem?_eq_some_iff.mp hstored).1 ▸ hstored⟩

/-- A load returns: no store has begun since it read the version, so no byte has changed. -/
theorem Inv.returned {left : Option Nat} {since begun : Nat} {bytes : List UInt8}
    (h : Inv s (.copyOut left since ver0 begun bytes ::ₘ rest)) (hfew : s.total < begun + 4294967296)
    (hend : s.value[bytes.length]? = none) (heven : ver0 &&& 1 = 0) (hver : ver0 = s.ver) :
    ∃ k, since ≤ k ∧ s.stored[k]? = some (bytes, s.ver) := by
  obtain ⟨hsince, hver0, hbegun, hlength, hcopied⟩ := h.knows _ (mem_cons_self ..)
  have hsame : begun = s.total := by
    have hmod := congrArg UInt32.toNat (hver0.symm.trans (hver.trans h.ver))
    simp only [UInt32.toNat_ofNat'] at hmod
    omega
  have htotal : s.total % 2 = 0 := (even_iff h.ver).mp (hver ▸ heven)
  have hvalue : bytes = s.value := by
    have hle : s.value.length ≤ bytes.length := List.getElem?_eq_none_iff.mp hend
    have htake := hcopied hsame htotal
    rwa [List.take_of_length_le hle] at htake
  have hidle : count Pc.isCopying (.copyOut left since ver0 begun bytes ::ₘ rest) = 0 := by
    have hle := h.copying
    have hsum := h.total
    omega
  refine ⟨s.stored.length - 1, by omega, ?_⟩
  rw [← List.getLast?_eq_getElem?, hvalue]
  exact h.idle hidle

theorem Serial.enter {e : Entry} (h : Serial calls) (hallowed : Allowed ⟨s, calls⟩ (.enter e))
    (he : enter e s = some (s', pc)) : Serial (pc ::ₘ calls) := by
  unfold Serial at h ⊢
  simp only [count_cons]
  cases e with
  | tryStore new =>
    obtain ⟨-, ⟨⟩⟩ := Option.ite_none_right_eq_some.mp he
    have hnone : count Pc.isExclusive calls = 0 := hallowed
    simp [Pc.isExclusive, hnone]
  | exclusiveStore new =>
    obtain ⟨-, ⟨⟩⟩ := Option.ite_none_right_eq_some.mp he
    have hnone : count Pc.isStore calls = 0 := hallowed
    simp [Pc.isStore, hnone]
  | _ =>
    cases he
    simpa [Pc.isExclusive, Pc.isStore] using h

theorem Inv.enter {e : Entry} (h : Inv s calls) (he : enter e s = some (s', pc)) : Inv s' (pc ::ₘ calls) := by
  have hstored : s.stored.length - 1 < s.stored.length := by
    have hsum := h.total
    have hle := h.copying
    omega
  have hnew : s' = s ∧ pc.Knows s ∧ pc.isCopying = false := by
    cases e with
    | tryStore new | exclusiveStore new =>
      obtain ⟨hlength, ⟨⟩⟩ := Option.ite_none_right_eq_some.mp he
      exact ⟨rfl, hlength, rfl⟩
    | tryLoadRepeat | waitLoad =>
      cases he
      exact ⟨rfl, hstored, rfl⟩
  obtain ⟨rfl, hknows, hcopying⟩ := hnew
  have hcount : count Pc.isCopying (pc ::ₘ calls) = count Pc.isCopying calls := by rw [count_cons, hcopying]; rfl
  exact ⟨h.ver, hcount ▸ h.total, hcount ▸ h.copying, hcount ▸ h.idle,
    Multiset.forall_mem_cons.mpr ⟨hknows, h.knows⟩, h.loaded⟩

theorem Inv.advance {u : Unit} (h : Inv s (pc ::ₘ rest)) (hserial : Serial (pc ::ₘ rest))
    (hallowed : Allowed ⟨s, pc ::ₘ rest⟩ (.advance u pc)) (ha : advance u s pc = some (s', next)) :
    Inv s' (resume next rest) := by
  have hknows := h.knows pc (mem_cons_self ..)
  cases pc with
  | tryStore new =>
    simp only [Seqlock.advance] at ha
    split at ha
    · cases ha
      exact h.still rfl nofun h.loaded
    · next heven =>
      cases ha
      refine h.still rfl ?_ h.loaded
      rintro _ ⟨⟩
      exact ⟨⟨hknows, not_not.mp heven⟩, rfl⟩
  | exchange new ver0 =>
    simp only [Seqlock.advance] at ha
    split at ha
    · next hver =>
      cases ha
      exact h.begin hserial rfl rfl ((even_iff h.ver).mp (hver ▸ hknows.2)) hver hknows.1
    · cases ha
      exact h.still rfl nofun h.loaded
  | exclusiveStore new =>
    cases ha
    refine h.still rfl ?_ h.loaded
    rintro _ ⟨⟩
    exact ⟨⟨hknows, rfl⟩, rfl⟩
  | mark new ver0 =>
    cases ha
    refine h.begin hserial rfl rfl ?_ hknows.2.symm hknows.1
    -- the other calls are no stores, so the version is even
    have hstore := hserial (by simp [Pc.isExclusive])
    have hle := count_le Pc.isCopying Pc.isStore (fun pc _ => by cases pc <;> simp_all [Pc.isCopying, Pc.isStore]) rest
    have hsum := h.total
    simp only [count_cons, Pc.isStore, Pc.isCopying, Bool.toNat_true, Bool.toNat_false] at hstore hsum
    omega
  | copyIn new ver0 n =>
    simp only [Seqlock.advance] at ha
    split at ha
    · next hbyte =>
      cases ha
      exact h.copy hserial hbyte
    · next hend =>
      cases ha
      exact h.publish hserial hend
  | tryLoad left since =>
    cases ha
    refine h.still rfl ?_ h.loaded
    rintro _ ⟨⟩
    exact ⟨⟨hknows, h.ver, Nat.le_refl _, Nat.zero_le _, fun _ _ => rfl⟩, rfl⟩
  | copyOut left since ver0 begun bytes =>
    obtain ⟨hsince, hver0, hbegun, hlength, hcopied⟩ := hknows
    simp only [Seqlock.advance] at ha
    split at ha
    · next byte hbyte =>
      obtain ⟨hlt, rfl⟩ := List.getElem?_eq_some_iff.mp hbyte
      cases ha
      refine h.still rfl ?_ h.loaded
      rintro _ ⟨⟩
      refine ⟨⟨hsince, hver0, hbegun, by rw [List.length_append]; exact hlt, fun he heven => ?_⟩, rfl⟩
      rw [List.length_append, List.length_singleton, List.take_succ_eq_append_getElem hlt, ← hcopied he heven]
    · next hend =>
      split at ha
      · next hsame =>
        cases ha
        refine h.still rfl nofun fun l hl => ?_
        rcases List.mem_append.mp hl with hl | hl
        · exact h.loaded l hl
        · obtain rfl := List.mem_singleton.mp hl
          exact h.returned hallowed hend hsame.1 hsame.2
      · cases ha
        refine h.still rfl (fun pc' he => ?_) h.loaded
        rcases left with _ | _ | n <;> cases he <;> exact ⟨hsince, rfl⟩

/-- In every run, whatever stores fail and however copies overlap: a load that returns gets a value and a version that
were stored together, and not by a store before the last one that was over when the load began. One store at most is
copying, and while none is, what the lock holds is the last value stored. -/
theorem loaded_of_reaches {c : Calls} (h : Reached c) :
    (∀ l ∈ c.shared.loaded, ∃ k, l.since ≤ k ∧ c.shared.stored[k]? = some (l.value, l.ver)) ∧
      count Pc.isCopying c.calls ≤ 1 ∧
      (count Pc.isCopying c.calls = 0 → c.shared.stored.getLast? = some (c.shared.value, c.shared.ver)) := by
  have hinv : Inv c.shared c.calls ∧ Serial c.calls := by
    refine h.invariant (I := fun c => Inv c.shared c.calls ∧ Serial c.calls) ?_ fun _ _ _ hi hok hs => ?_
    · rintro _ ⟨value, rfl⟩
      exact ⟨⟨rfl, rfl, Nat.zero_le _, fun _ => rfl, nofun, nofun⟩, nofun⟩
    · cases hs with
      | enter he => exact ⟨hi.1.enter he, hi.2.enter hok he⟩
      | advance ha => exact ⟨hi.1.advance hi.2 hok ha, hi.2.advance ha⟩
  exact ⟨hinv.1.loaded, hinv.1.copying, hinv.1.idle⟩

theorem reaches_next {pc' : Pc} (h : Reached ⟨s, pc ::ₘ rest⟩)
    (hallowed : Allowed ⟨s, pc ::ₘ rest⟩ (.advance () pc)) (ha : advance () s pc = some (s', some pc')) :
    Reached ⟨s', pc' ::ₘ rest⟩ :=
  h.step hallowed (.advance ha)

theorem reaches_last (h : Reached ⟨s, pc ::ₘ rest⟩)
    (hallowed : Allowed ⟨s, pc ::ₘ rest⟩ (.advance () pc)) (ha : advance () s pc = some (s', none)) :
    Reached ⟨s', rest⟩ :=
  h.step hallowed (.advance ha)

/-- The first attempt copies the old byte while a store is going on, and the second one gets the new byte. -/
theorem loaded_of_reaches_retried : ∃ s : Lock, s.loaded = [⟨0, [8], 2⟩] ∧
    ∀ l ∈ s.loaded, ∃ k, l.since ≤ k ∧ s.stored[k]? = some (l.value, l.ver) := by
  have hnew : Reached ⟨{ value := [7], stored := [([7], 0)] }, 0⟩ := .start ⟨_, rfl⟩
  have hstore := hnew.step (a := Label.enter (.tryStore [8])) (by rfl) (.enter rfl)
  have heven := reaches_next hstore trivial rfl
  have hmarked := reaches_next heven trivial rfl
  have hload := hmarked.step (a := Label.enter .tryLoadRepeat) (by trivial) (.enter rfl)
  have hodd := reaches_next hload trivial rfl
  have hold := reaches_next hodd (show 1 < 1 + 4294967296 by decide) rfl
  have hfailed := reaches_next hold (show 1 < 1 + 4294967296 by decide) rfl
  have hturn := Multiset.cons_swap _ _ _ ▸ hfailed
  have hcopied := reaches_next hturn trivial rfl
  have hpublished := reaches_last hcopied trivial rfl
  have hagain := reaches_next hpublished trivial rfl
  have hbyte := reaches_next hagain (show 2 < 2 + 4294967296 by decide) rfl
  have hreturned := reaches_last hbyte (show 2 < 2 + 4294967296 by decide) rfl
  exact ⟨_, rfl, (loaded_of_reaches hreturned).1⟩

end Roc.Core.Seqlock
