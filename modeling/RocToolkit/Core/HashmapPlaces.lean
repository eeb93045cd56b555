import RocToolkit.Core.Hashmap
import Mathlib.Data.List.Nodup
import Mathlib.Data.List.Perm.Basic

/-!
# RocToolkit.Core.HashmapPlaces

Where the nodes of a hash map are. A node points to its bucket, and the bucket has it in its list; what is in no
bucket points nowhere. Nodes are unlinked and linked again one by one, so the nodes in buckets are a list of their own
here, which may differ from the list of all elements for a moment.
-/

open Function (update_of_ne update_self)

namespace Roc.Core.Hashmap

open List

variable {ν : Type}

structure Holds (bucket : ν → Option (BucketMemory × Nat)) (a : BucketArray ν) : Prop where
  nodup : ∀ i, (a.buckets i).Nodup
  mem_iff : ∀ i n, n ∈ a.buckets i ↔ bucket n = some (a.memory, i) ∧ i < a.count

def PointsTo (bucket : ν → Option (BucketMemory × Nat)) (a : BucketArray ν) (n : ν) : Prop :=
  ∃ i, i < a.count ∧ bucket n = some (a.memory, i)

theorem contains_iff {bucket : ν → Option (BucketMemory × Nat)} {a : BucketArray ν} {n : ν} :
    a.contains (bucket n) = true ↔ PointsTo bucket a n := by
  unfold PointsTo
  cases hb : bucket n with
  | none => simp [BucketArray.contains]
  | some r =>
    obtain ⟨memory, i⟩ := r
    simp only [BucketArray.contains, Bool.and_eq_true, decide_eq_true_eq, Option.some.injEq, Prod.mk.injEq]
    constructor
    · rintro ⟨-, rfl, hi⟩
      exact ⟨i, hi, rfl, rfl⟩
    · rintro ⟨j, hj, rfl, rfl⟩
      exact ⟨by omega, rfl, hj⟩

section
variable [DecidableEq ν] {bucket : ν → Option (BucketMemory × Nat)} {a : BucketArray ν} {n : ν} {i : Nat}

theorem Holds.update (h : Holds bucket a) {r : Option (BucketMemory × Nat)} (hn : ¬ PointsTo bucket a n)
    (hr : ∀ i, i < a.count → r ≠ some (a.memory, i)) : Holds (Function.update bucket n r) a where
  nodup := h.nodup
  mem_iff j m := by
    rw [h.mem_iff]
    by_cases hm : m = n
    · subst hm
      rw [update_self]
      exact ⟨fun ⟨hb, hj⟩ => absurd ⟨j, hj, hb⟩ hn, fun ⟨hb, hj⟩ => absurd hb (hr j hj)⟩
    · rw [update_of_ne hm]

theorem Holds.erase (h : Holds bucket a) (hn : bucket n = some (a.memory, i)) :
    Holds (Function.update bucket n none) (a.erase i n) where
  nodup j := by
    unfold BucketArray.erase
    by_cases hj : j = i
    · subst hj
      simpa using (h.nodup j).erase n
    · simpa [hj] using h.nodup j
  mem_iff j m := by
    show m ∈ Function.update a.buckets i ((a.buckets i).erase n) j ↔
      Function.update bucket n none m = some (a.memory, j) ∧ j < a.count
    by_cases hj : j = i
    · subst hj
      rw [update_self, (h.nodup j).mem_erase_iff, h.mem_iff]
      by_cases hm : m = n
      · subst hm
        simp
      · simp [hm]
    · rw [update_of_ne hj, h.mem_iff]
      by_cases hm : m = n
      · subst hm
        rw [hn, update_self]
        simp [Ne.symm hj]
      · rw [update_of_ne hm]

theorem Holds.insert (h : Holds bucket a) (hn : bucket n = none) (hi : i < a.count) :
    Holds (Function.update bucket n (some (a.memory, i)))
      { a with buckets := Function.update a.buckets i (a.buckets i ++ [n]) } where
  nodup j := by
    by_cases hj : j = i
    · subst hj
      have hnot : n ∉ a.buckets j := fun hmem => by
        rw [((h.mem_iff j n).mp hmem).1] at hn
        cases hn
      show (Function.update a.buckets j (a.buckets j ++ [n]) j).Nodup
      rw [update_self]
      exact nodup_append.mpr ⟨h.nodup j, nodup_singleton n, fun x hx y hy e => by
        rw [mem_singleton] at hy
        exact hnot (hy ▸ e ▸ hx)⟩
    · simpa [hj] using h.nodup j
  mem_iff j m := by
    show m ∈ Function.update a.buckets i (a.buckets i ++ [n]) j ↔
      Function.update bucket n (some (a.memory, i)) m = some (a.memory, j) ∧ j < a.count
    by_cases hm : m = n
    · subst hm
      rw [update_self]
      by_cases hj : j = i
      · subst hj
        simp [hi]
      · rw [update_of_ne hj, h.mem_iff, hn]
        simp [Ne.symm hj]
    · rw [update_of_ne hm, ← h.mem_iff]
      by_cases hj : j = i
      · subst hj
        simp [hm]
      · rw [update_of_ne hj]

end

/-- The nodes of `l` are in the buckets, and no others. -/
structure Placed (h : Hashmap ν) (l : List ν) : Prop where
  nodup : l.Nodup
  mem_iff : ∀ n, n ∈ l ↔ h.bucket n ≠ none
  curr : Holds h.bucket h.curr
  prev : Holds h.bucket h.prev
  /-- a node points to a bucket that its hash selects -/
  place : ∀ n r, h.bucket n = some r → (r = (h.curr.memory, h.hash n % h.curr.count) ∧ 0 < h.curr.count) ∨
      (r = (h.prev.memory, h.hash n % h.prev.count) ∧ 0 < h.prev.count)
  distinct : h.prev.count = 0 ∨ h.curr.memory ≠ h.prev.memory
  remain : h.rehashRemainNodes = l.countP fun n => h.prev.contains (h.bucket n)

variable {l : List ν} {h : Hashmap ν}

theorem Placed.perm {l' : List ν} (hp : Placed h l) (hl : l.Perm l') : Placed h l' :=
  { hp with
    nodup := hl.nodup_iff.mp hp.nodup
    mem_iff := fun n => hl.mem_iff.symm.trans (hp.mem_iff n)
    remain := hp.remain.trans (hl.countP_eq _) }

structure SameShape (h h' : Hashmap ν) : Prop where
  numPreallocated : h'.numPreallocatedBuckets = h.numPreallocatedBuckets
  curr_memory : h'.curr.memory = h.curr.memory
  curr_count : h'.curr.count = h.curr.count
  prev_memory : h'.prev.memory = h.prev.memory
  size : h'.size = h.size
  all : h'.all = h.all
  hash : h'.hash = h.hash
  allocations : h'.allocations = h.allocations

theorem SameShape.refl (h : Hashmap ν) : SameShape h h := ⟨rfl, rfl, rfl, rfl, rfl, rfl, rfl, rfl⟩

theorem SameShape.trans {h1 h2 h3 : Hashmap ν} (h : SameShape h1 h2) (h' : SameShape h2 h3) : SameShape h1 h3 where
  numPreallocated := h'.numPreallocated.trans h.numPreallocated
  curr_memory := h'.curr_memory.trans h.curr_memory
  curr_count := h'.curr_count.trans h.curr_count
  prev_memory := h'.prev_memory.trans h.prev_memory
  size := h'.size.trans h.size
  all := h'.all.trans h.all
  hash := h'.hash.trans h.hash
  allocations := h'.allocations.trans h.allocations

section
variable [DecidableEq ν] {h : Hashmap ν} {l : List ν} {n : ν}

theorem countP_erase (bucket : ν → Option (BucketMemory × Nat)) (a : BucketArray ν) (hl : l.Nodup) (hn : n ∈ l) :
    l.countP (fun m => a.contains (bucket m)) =
      (l.erase n).countP (fun m => a.contains (Function.update bucket n none m)) +
        if a.contains (bucket n) then 1 else 0 := by
  have hsame : (l.erase n).countP (fun m => a.contains (Function.update bucket n none m)) =
      (l.erase n).countP fun m => a.contains (bucket m) := countP_congr fun m hm => by
    rw [update_of_ne (hl.mem_erase_iff.mp hm).1]
  rw [hsame, (perm_cons_erase hn).countP_eq, countP_cons]

theorem update_none_eq_some {bucket : ν → Option (BucketMemory × Nat)} {m : ν} {r : BucketMemory × Nat}
    (h : Function.update bucket n none m = some r) : bucket m = some r := by
  by_cases hm : m = n
  · subst hm
    rw [update_self] at h
    cases h
  · rwa [update_of_ne hm] at h

theorem mem_erase_iff_update (hp : Placed h l) (m : ν) : m ∈ l.erase n ↔ Function.update h.bucket n none m ≠ none := by
  rw [hp.nodup.mem_erase_iff]
  by_cases hm : m = n
  · subst hm
    simp
  · rw [update_of_ne hm, ← hp.mem_iff]
    exact and_iff_right hm

variable {i : Nat}

theorem Placed.erasePrev (hp : Placed h l) (hn : n ∈ l) (hi : i < h.prev.count)
    (hb : h.bucket n = some (h.prev.memory, i)) :
    Placed { h with prev := h.prev.erase i n, rehashRemainNodes := h.rehashRemainNodes - 1,
                    bucket := Function.update h.bucket n none } (l.erase n) ∧ 0 < h.rehashRemainNodes := by
  have hdist : h.curr.memory ≠ h.prev.memory := hp.distinct.resolve_left (by omega)
  have hcount := countP_erase h.bucket h.prev hp.nodup hn
  rw [← hp.remain, if_pos (contains_iff.mpr ⟨i, hi, hb⟩)] at hcount
  refine ⟨?_, by omega⟩
  exact {
    nodup := hp.nodup.erase n
    mem_iff := mem_erase_iff_update hp
    curr := hp.curr.update (fun ⟨j, _, hj⟩ => by
      rw [hb, Option.some.injEq, Prod.mk.injEq] at hj
      exact hdist hj.1.symm) (by simp)
    prev := hp.prev.erase hb
    place := fun m r hr => hp.place m r (update_none_eq_some hr)
    distinct := hp.distinct
    remain := by
      show h.rehashRemainNodes - 1 = _
      rw [hcount]
      rfl }

theorem Placed.eraseCurr (hp : Placed h l) (hn : n ∈ l) (hprev : ¬ PointsTo h.bucket h.prev n)
    (hb : h.bucket n = some (h.curr.memory, i)) :
    Placed { h with curr := h.curr.erase i n, bucket := Function.update h.bucket n none } (l.erase n) where
  nodup := hp.nodup.erase n
  mem_iff := mem_erase_iff_update hp
  curr := hp.curr.erase hb
  prev := hp.prev.update hprev (by simp)
  place m r hr := hp.place m r (update_none_eq_some hr)
  distinct := hp.distinct
  remain := by
    have hcount := countP_erase h.bucket h.prev hp.nodup hn
    rw [← hp.remain, if_neg fun hc => hprev (contains_iff.mp hc)] at hcount
    exact hcount

structure Unlinked (h : Hashmap ν) (l : List ν) (n : ν) (h' : Hashmap ν) : Prop where
  placed : Placed h' (l.erase n)
  shape : SameShape h h'
  prev_count : h'.prev.count = h.prev.count
  rehashPos : h'.rehashPos = h.rehashPos
  bucket : h'.bucket n = none
  empty : ∀ i, h.prev.buckets i = [] → h'.prev.buckets i = []
  remain : h.rehashRemainNodes = h'.rehashRemainNodes + if h.prev.contains (h.bucket n) then 1 else 0

theorem Placed.bucketRemove (hp : Placed h l) (hn : n ∈ l) : ∃ h', h.bucketRemove n = .ok h' ∧ Unlinked h l n h' := by
  obtain ⟨⟨memory, i⟩, hb⟩ := Option.ne_none_iff_exists'.mp ((hp.mem_iff n).mp hn)
  unfold Hashmap.bucketRemove memberOfBucketArray
  by_cases hmem : h.prev.contains (h.bucket n) = true
  · obtain ⟨j, hj, hbj⟩ := contains_iff.mp hmem
    rw [hb] at hbj
    cases hbj
    obtain ⟨hplaced, hpos⟩ := hp.erasePrev hn hj hb
    refine ⟨_, by simp only [hb, hb ▸ hmem, if_true, hpos], hplaced, ⟨rfl, rfl, rfl, rfl, rfl, rfl, rfl, rfl⟩, rfl,
      rfl, update_self .., fun k hk => ?_, ?_⟩
    · show Function.update h.prev.buckets i ((h.prev.buckets i).erase n) k = []
      by_cases hki : k = i
      · subst hki
        rw [update_self, hk]
        rfl
      · rw [update_of_ne hki, hk]
    · rw [hmem, if_pos rfl]
      exact (Nat.sub_add_cancel hpos).symm
  · have hnot : ¬ PointsTo h.bucket h.prev n := fun hpt => hmem (contains_iff.mpr hpt)
    rcases hp.place n _ hb with ⟨hr, hcount⟩ | ⟨hr, hcount⟩
    · cases hr
      have hi : h.hash n % h.curr.count < h.curr.count := Nat.mod_lt _ hcount
      refine ⟨_, by simp only [hb, hb ▸ hmem, Bool.false_eq_true, if_false, hi, and_self, if_true],
        hp.eraseCurr hn hnot hb, ⟨rfl, rfl, rfl, rfl, rfl, rfl, rfl, rfl⟩, rfl, rfl, update_self ..,
        fun k hk => hk, ?_⟩
      rw [if_neg hmem]
      rfl
    · cases hr
      exact absurd ⟨_, Nat.mod_lt _ hcount, hb⟩ hnot

theorem Placed.bucketInsert (hp : Placed h l) (hn : n ∉ l) (hcount : 0 < h.curr.count)
    (hselect : i = h.hash n % h.curr.count) : Placed (h.bucketInsert i n) (n :: l) := by
  subst hselect
  have hb : h.bucket n = none := by
    by_contra hne
    exact hn ((hp.mem_iff n).mpr hne)
  have hi : h.hash n % h.curr.count < h.curr.count := Nat.mod_lt _ hcount
  have hnew : ¬ PointsTo (Function.update h.bucket n (some (h.curr.memory, h.hash n % h.curr.count))) h.prev n := by
    rintro ⟨j, hj, hbj⟩
    rw [update_self, Option.some.injEq, Prod.mk.injEq] at hbj
    exact hp.distinct.elim (fun h0 => by omega) fun hne => hne hbj.1
  have hnot : ¬ PointsTo h.bucket h.prev n := by
    rintro ⟨j, hj, hbj⟩
    rw [hb] at hbj
    cases hbj
  exact {
    nodup := nodup_cons.mpr ⟨hn, hp.nodup⟩
    mem_iff := fun m => by
      show m ∈ n :: l ↔ Function.update h.bucket n (some (h.curr.memory, h.hash n % h.curr.count)) m ≠ none
      rw [mem_cons]
      by_cases hm : m = n
      · subst hm
        simp
      · rw [update_of_ne hm, ← hp.mem_iff]
        exact or_iff_right hm
    curr := hp.curr.insert hb hi
    prev := hp.prev.update hnot fun j hj hr => hnew ⟨j, hj, by rw [update_self, hr]⟩
    place := fun m r hr => by
      by_cases hm : m = n
      · subst hm
        have hr' : Function.update h.bucket m (some (h.curr.memory, h.hash m % h.curr.count)) m = some r := hr
        rw [update_self, Option.some.injEq] at hr'
        exact .inl ⟨hr'.symm, hcount⟩
      · have hr' : Function.update h.bucket n (some (h.curr.memory, h.hash n % h.curr.count)) m = some r := hr
        rw [update_of_ne hm] at hr'
        exact hp.place m r hr'
    distinct := hp.distinct
    remain := by
      have hsame : l.countP (fun m => h.prev.contains (h.bucket m)) = l.countP fun m => h.prev.contains
          (Function.update h.bucket n (some (h.curr.memory, h.hash n % h.curr.count)) m) :=
        countP_congr fun m hm => by
          have hmn : m ≠ n := fun e => hn (e ▸ hm)
          rw [update_of_ne hmn]
      show h.rehashRemainNodes = (n :: l).countP fun m => h.prev.contains
        (Function.update h.bucket n (some (h.curr.memory, h.hash n % h.curr.count)) m)
      rw [hp.remain, hsame, countP_cons, if_neg fun hc => hnew (contains_iff.mp hc)]
      rfl }

theorem Placed.migrateNode (hp : Placed h l) (hn : n ∈ l) (hprev : h.prev.contains (h.bucket n) = true)
    (hcount : 0 < h.curr.count) :
    ∃ h', h.migrateNode n = .ok h' ∧ Placed h' l ∧ SameShape h h' ∧ h'.prev.count = h.prev.count ∧
      h'.rehashPos = h.rehashPos ∧ (∀ i, h.prev.buckets i = [] → h'.prev.buckets i = []) ∧
      h.rehashRemainNodes = h'.rehashRemainNodes + 1 := by
  obtain ⟨h1, hremove, hu⟩ := hp.bucketRemove hn
  have hcount1 : 0 < h1.curr.count := hu.shape.curr_count ▸ hcount
  have hnot : n ∉ l.erase n := fun hmem => (hp.nodup.mem_erase_iff.mp hmem).1 rfl
  have hinsert := (hu.placed.bucketInsert hnot hcount1 rfl).perm (perm_cons_erase hn).symm
  refine ⟨_, ?_, hinsert, ?_, hu.prev_count, hu.rehashPos, hu.empty, ?_⟩
  · rw [Hashmap.migrateNode, hremove, ok_bind, selectBucket, if_neg (Nat.pos_iff_ne_zero.mp hcount1), ok_bind]
  · exact hu.shape.trans ⟨rfl, rfl, rfl, rfl, rfl, rfl, rfl, rfl⟩
  · rw [hu.remain, if_pos hprev]
    rfl

omit [DecidableEq ν] in
theorem Placed.dropPrev (hp : Placed h l) (hempty : ∀ i, i < h.prev.count → h.prev.buckets i = []) :
    h.rehashRemainNodes = 0 ∧ Placed { h with rehashPos := 0, prev := { h.prev with count := 0 } } l := by
  have hnone : ∀ n, ¬ PointsTo h.bucket h.prev n := by
    rintro n ⟨i, hi, hb⟩
    have hmem := (hp.prev.mem_iff i n).mpr ⟨hb, hi⟩
    rw [hempty i hi] at hmem
    cases hmem
  have hremain : h.rehashRemainNodes = 0 := by
    rw [hp.remain, countP_eq_zero]
    exact fun n _ hc => hnone n (contains_iff.mp hc)
  have hnot : ∀ n i, n ∉ h.prev.buckets i := fun n i hmem => by
    obtain ⟨-, hi⟩ := (hp.prev.mem_iff i n).mp hmem
    rw [hempty i hi] at hmem
    cases hmem
  refine ⟨hremain, { hp with
    prev := ⟨hp.prev.nodup, fun i n => ⟨fun hmem => absurd hmem (hnot n i), fun ⟨_, hi⟩ => absurd hi (Nat.not_lt_zero i)⟩⟩
    place := fun n r hr => ?_
    distinct := .inl rfl
    remain := ?_ }⟩
  · rcases hp.place n r hr with hcurr | ⟨rfl, hcount⟩
    · exact .inl hcurr
    · exact absurd ⟨_, Nat.mod_lt _ hcount, hr⟩ (hnone n)
  · refine hremain.trans (countP_eq_zero.mpr fun n _ hc => ?_).symm
    obtain ⟨i, hi, -⟩ := contains_iff.mp hc
    exact Nat.not_lt_zero i hi

end

/-! ## Rehashing -/

structure Cursor (h : Hashmap ν) : Prop where
  passed : ∀ i, i < h.rehashPos → h.prev.buckets i = []
  pos : h.rehashPos < h.prev.count ∨ (h.rehashPos = 0 ∧ h.prev.count = 0)

structure Rehashed (h : Hashmap ν) (l : List ν) (numMigrations : Nat) (h' : Hashmap ν) : Prop where
  placed : Placed h' l
  shape : SameShape h h'
  cursor : Cursor h'
  remain : (h'.rehashRemainNodes = 0 ∧ h'.prev.count = 0) ∨
    (h.rehashRemainNodes = h'.rehashRemainNodes + numMigrations ∧ 0 < h'.rehashRemainNodes)

variable [DecidableEq ν]

theorem rehashLoop_spec (fuel : Nat) (numMigrations : Nat) (h : Hashmap ν) (hp : Placed h l)
    (hc : Cursor h) (hcurr : 0 < h.curr.count) (hprev : 0 < h.prev.count)
    (hfuel : h.prev.count - h.rehashPos + numMigrations < fuel) :
    ∃ h', rehashLoop fuel numMigrations h = .ok h' ∧ Rehashed h l numMigrations h' := by
  induction fuel generalizing numMigrations h with
  | zero => omega
  | succ fuel ih =>
    have hpos : h.rehashPos < h.prev.count := hc.pos.resolve_right (by omega)
    unfold rehashLoop
    rw [if_pos hpos]
    cases hbucket : h.prev.buckets h.rehashPos with
    | nil =>
      have hpassed : ∀ i, i < h.rehashPos + 1 → h.prev.buckets i = [] := fun i hi => by
        rcases Nat.lt_succ_iff_lt_or_eq.mp hi with hi | rfl
        · exact hc.passed i hi
        · exact hbucket
      by_cases hend : h.rehashPos + 1 = h.prev.count
      · obtain ⟨hremain, hplaced⟩ := hp.dropPrev fun i hi => hpassed i (hend ▸ hi)
        refine ⟨_, by simp only [if_pos hend, if_pos hremain], hplaced, ⟨rfl, rfl, rfl, rfl, rfl, rfl, rfl, rfl⟩, ?_,
          .inl ⟨hremain, rfl⟩⟩
        exact ⟨fun i hi => absurd hi (Nat.not_lt_zero i), .inr ⟨rfl, rfl⟩⟩
      · -- the cursor moves on
        simp only [if_neg hend]
        obtain ⟨h', hloop, hr⟩ := ih numMigrations { h with rehashPos := h.rehashPos + 1 } { hp with }
          ⟨hpassed, .inl (by simp only; omega)⟩ hcurr hprev (by simp only; omega)
        exact ⟨h', hloop, hr.placed, { hr.shape with }, hr.cursor, hr.remain⟩
    | cons head tail =>
      have hmem : head ∈ h.prev.buckets h.rehashPos := hbucket ▸ mem_cons_self
      obtain ⟨hb, -⟩ := (hp.prev.mem_iff _ _).mp hmem
      have hcontains : h.prev.contains (h.bucket head) = true := contains_iff.mpr ⟨_, hpos, hb⟩
      have hin : head ∈ l := (hp.mem_iff head).mpr (by rw [hb]; simp)
      by_cases hnum : numMigrations = 0
      · refine ⟨h, by simp only [if_pos hnum], hp, .refl h, hc, .inr ⟨by rw [hnum]; rfl, ?_⟩⟩
        rw [hp.remain]
        exact countP_pos_iff.mpr ⟨head, hin, hcontains⟩
      · simp only [if_neg hnum]
        obtain ⟨h1, hmigrate, hp1, hshape1, hcount1, hpos1, hempty1, hremain1⟩ := hp.migrateNode hin hcontains hcurr
        obtain ⟨h', hloop, hr⟩ := ih (numMigrations - 1) h1 hp1
          ⟨fun i hi => hempty1 i (hc.passed i (hpos1 ▸ hi)), .inl (by omega)⟩ (hshape1.curr_count ▸ hcurr) (by omega) (by omega)
        refine ⟨h', by rw [hmigrate, ok_bind, hloop], hr.placed, hshape1.trans hr.shape, hr.cursor, ?_⟩
        exact hr.remain.imp_right fun ⟨heq, hlt⟩ => ⟨by omega, hlt⟩

theorem proceedRehash_spec (hp : Placed h l) (hc : Cursor h) (hcurr : 0 < h.curr.count) (inInsert : Bool) :
    ∃ h', h.proceedRehash inInsert = .ok h' ∧ Placed h' l ∧ SameShape h h' ∧ Cursor h' ∧
      (inInsert = true → h.size = bucketsCapacity h.curr.count → h'.rehashRemainNodes = 0) := by
  unfold proceedRehash
  by_cases hremain : h.rehashRemainNodes = 0
  · exact ⟨h, if_pos hremain, hp, .refl h, hc, fun _ _ => hremain⟩
  · rw [if_neg hremain]
    have hprev : 0 < h.prev.count := by
      obtain ⟨n, -, hn⟩ := countP_pos_iff.mp (hp.remain ▸ Nat.pos_of_ne_zero hremain)
      obtain ⟨i, hi, -⟩ := contains_iff.mp hn
      omega
    obtain ⟨h', hloop, hr⟩ := rehashLoop_spec _ (h.numMigrations inInsert) h hp hc hcurr hprev
      (Nat.lt_succ_of_le (Nat.add_le_add_right (Nat.sub_le _ _) _))
    refine ⟨h', hloop, hr.placed, hr.shape, hr.cursor, fun hin hfull => ?_⟩
    rcases hr.remain with ⟨hzero, -⟩ | ⟨heq, hlt⟩
    · exact hzero
    · have hall : h.numMigrations inInsert = h.rehashRemainNodes := by
        simp only [Hashmap.numMigrations, hin, if_true, hfull, Nat.sub_self]
      omega

end Roc.Core.Hashmap
