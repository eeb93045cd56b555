import RocToolkit.Core.HashmapPlaces

/-!
# RocToolkit.Core.HashmapInvariant

What holds between the calls of a hash map. Rehashing is over whenever the table is full, because the last insertion
before moves all nodes that are left; so a growth finds no nodes in the previous array. It panics nevertheless if the
cursor was left behind: the cursor is reset where the loop passes the last bucket, and a removal that takes the last
node out of the previous array ends rehashing without the loop.
-/

open Function (update_of_ne update_self)

namespace Roc.Core.Hashmap

open List Option

variable {ν κ : Type}

structure Inv (keyOf : ν → κ) (keyHash : κ → Nat) (h : Hashmap ν) : Prop where
  placed : Placed h h.all
  cursor : Cursor h
  size : h.size = h.all.length
  keys : ∀ m ∈ h.all, ∀ n ∈ h.all, keyOf m = keyOf n → m = n
  hash : ∀ n ∈ h.all, h.hash n = keyHash (keyOf n)
  le_capacity : h.size ≤ bucketsCapacity h.curr.count
  full : h.size = bucketsCapacity h.curr.count → h.rehashRemainNodes = 0
  null : h.curr.memory = .null ↔ h.curr.count = 0
  null_prev : h.curr.count = 0 → h.prev.count = 0
  fresh : ∀ id, h.curr.memory = .arena id → id < h.allocations

theorem inv_empty (keyOf : ν → κ) (keyHash : κ → Nat) (numPreallocated : Nat) :
    Inv keyOf keyHash { numPreallocatedBuckets := numPreallocated } where
  placed := {
    nodup := nodup_nil
    mem_iff := fun n => by simp
    curr := ⟨fun _ => nodup_nil, fun i n => by simp⟩
    prev := ⟨fun _ => nodup_nil, fun i n => by simp⟩
    place := fun n r hr => by cases hr
    distinct := .inl rfl
    remain := rfl }
  cursor := ⟨fun i hi => absurd hi (Nat.not_lt_zero i), .inr ⟨rfl, rfl⟩⟩
  size := rfl
  keys m hm := by cases hm
  hash n hn := by cases hn
  le_capacity := Nat.zero_le _
  full _ := rfl
  null := by simp
  null_prev _ := rfl
  fresh id hid := by cases hid

/-! ## Lookup -/

section
variable [DecidableEq κ] {keyOf : ν → κ} {keyHash : κ → Nat} {h : Hashmap ν} {n : ν} {k : κ}

section
variable {a : BucketArray ν} (hinv : Inv keyOf keyHash h) (ha : Holds h.bucket a)
include hinv ha

theorem findInArray_eq_some (hn : h.findInArray keyOf a (keyHash k) k = some n) : n ∈ h.all ∧ keyOf n = k := by
  unfold findInArray findInBucket at hn
  split at hn
  · have hfound := List.find?_some hn
    simp only [Bool.and_eq_true, decide_eq_true_eq] at hfound
    obtain ⟨hb, -⟩ := (ha.mem_iff _ _).mp (mem_of_find?_eq_some hn)
    exact ⟨(hinv.placed.mem_iff n).mpr (by rw [hb]; simp), hfound.2⟩
  · cases hn

theorem isSome_findInArray (hn : n ∈ h.all)
    (hb : h.bucket n = some (a.memory, h.hash n % a.count)) (hcount : 0 < a.count) :
    (h.findInArray keyOf a (keyHash (keyOf n)) (keyOf n)).isSome = true := by
  unfold findInArray findInBucket
  rw [if_pos (Nat.pos_iff_ne_zero.mp hcount), List.find?_isSome]
  have hhash := hinv.hash n hn
  refine ⟨n, (ha.mem_iff _ _).mpr ⟨hhash ▸ hb, Nat.mod_lt _ hcount⟩, ?_⟩
  simp [hhash]

end

theorem Inv.findNode_eq_some (hinv : Inv keyOf keyHash h) :
    h.findNode keyOf (keyHash k) k = some n ↔ n ∈ h.all ∧ keyOf n = k := by
  have hsound : ∀ {m}, h.findNode keyOf (keyHash k) k = some m → m ∈ h.all ∧ keyOf m = k := by
    intro m hm
    rcases or_eq_some_iff.mp hm with hm | ⟨-, hm⟩
    · exact findInArray_eq_some hinv hinv.placed.curr hm
    · exact findInArray_eq_some hinv hinv.placed.prev hm
  refine ⟨hsound, fun ⟨hn, hkey⟩ => ?_⟩
  subst hkey
  have hsome : (h.findNode keyOf (keyHash (keyOf n)) (keyOf n)).isSome = true := by
    obtain ⟨r, hb⟩ := ne_none_iff_exists'.mp ((hinv.placed.mem_iff n).mp hn)
    unfold findNode
    rw [isSome_or, Bool.or_eq_true]
    rcases hinv.placed.place n r hb with ⟨rfl, hcount⟩ | ⟨rfl, hcount⟩
    · exact .inl (isSome_findInArray hinv hinv.placed.curr hn hb hcount)
    · exact .inr (isSome_findInArray hinv hinv.placed.prev hn hb hcount)
  obtain ⟨m, hm⟩ := isSome_iff_exists.mp hsome
  obtain ⟨hmem, hkey⟩ := hsound hm
  rw [hm, hinv.keys m hmem n hn hkey]

omit [DecidableEq κ] in
theorem Inv.contains_iff (hinv : Inv keyOf keyHash h) : h.contains n = true ↔ n ∈ h.all := by
  unfold Hashmap.contains memberOfBucketArray
  rw [Bool.or_eq_true, Hashmap.contains_iff, Hashmap.contains_iff, hinv.placed.mem_iff]
  constructor
  · rintro (⟨i, -, hb⟩ | ⟨i, -, hb⟩) <;> rw [hb] <;> simp
  · intro hne
    obtain ⟨r, hb⟩ := ne_none_iff_exists'.mp hne
    rcases hinv.placed.place n r hb with ⟨rfl, hcount⟩ | ⟨rfl, hcount⟩
    · exact .inl ⟨_, Nat.mod_lt _ hcount, hb⟩
    · exact .inr ⟨_, Nat.mod_lt _ hcount, hb⟩

end

/-! ## Growth -/

theorem embeddedBucketSize_gt {numPreallocated currentCount n : Nat} (l : List Nat)
    (h : embeddedBucketSize numPreallocated currentCount l = some n) : currentCount < n := by
  induction l with
  | nil => cases h
  | cons p rest ih =>
    cases rest with
    | nil => cases h
    | cons q rest =>
      unfold embeddedBucketSize at h
      split at h
      · cases h
      · split at h
        · next hp =>
          cases h
          exact hp.1
        · exact ih h

theorem getNextBucketSize_gt (h : Hashmap ν) (currentCount : Nat) :
    currentCount < h.getNextBucketSize currentCount := by
  unfold getNextBucketSize
  simp only
  split
  · next n hn =>
    split at hn
    · exact embeddedBucketSize_gt _ hn
    · cases hn
  · split
    · next n hn =>
      have := List.find?_some hn
      simp only [decide_eq_true_eq] at this
      exact this.2
    · next hn =>
      have hlast := List.find?_eq_none.mp hn 786433 (by decide)
      simp only [decide_eq_true_eq] at hlast
      omega

theorem le_bucketsCapacity (n : Nat) : n ≤ bucketsCapacity n := by
  unfold bucketsCapacity
  omega

theorem growLoop_spec (h : Hashmap ν) (fuel n : Nat) (hfuel : 0 < fuel) (hn : h.size < n + fuel) :
    ∃ n', h.growLoop fuel n = .ok n' ∧ n < n' ∧ h.size < bucketsCapacity n' := by
  induction fuel generalizing n with
  | zero => omega
  | succ fuel ih =>
    have hgt := getNextBucketSize_gt h n
    have hcap := le_bucketsCapacity (h.getNextBucketSize n)
    unfold growLoop
    by_cases hfull : h.size ≥ bucketsCapacity (h.getNextBucketSize n)
    · obtain ⟨n', hloop, hlt, hroom⟩ := ih (h.getNextBucketSize n) (by omega) (by omega)
      exact ⟨n', by simp only [if_pos hfull, hloop], by omega, hroom⟩
    · exact ⟨_, by simp only [if_neg hfull], hgt, by omega⟩

section
variable {keyOf : ν → κ} {keyHash : κ → Nat} {h : Hashmap ν}

theorem Placed.place_curr {l : List ν} (hp : Placed h l) (hremain : h.rehashRemainNodes = 0) {n : ν}
    {r : BucketMemory × Nat} (hr : h.bucket n = some r) :
    r = (h.curr.memory, h.hash n % h.curr.count) ∧ 0 < h.curr.count := by
  rcases hp.place n r hr with hcurr | ⟨rfl, hcount⟩
  · exact hcurr
  · have hn : n ∈ l := (hp.mem_iff n).mpr (by rw [hr]; simp)
    have hnone := countP_eq_zero.mp (hp.remain.symm.trans hremain) n hn
    exact absurd (Hashmap.contains_iff.mpr ⟨_, Nat.mod_lt _ hcount, hr⟩) hnone

theorem Placed.newArray (hp : Placed h h.all) (hsize : h.size = h.all.length)
    (hremain : h.rehashRemainNodes = 0) {memory : BucketMemory} (hnew : memory ≠ h.curr.memory) (nBuckets : Nat) :
    Placed { h with prev := h.curr, rehashPos := 0, rehashRemainNodes := h.size,
                    curr := { memory, count := nBuckets } } h.all where
  nodup := hp.nodup
  mem_iff := hp.mem_iff
  curr := ⟨fun _ => nodup_nil, fun i n => ⟨fun hmem => (by cases hmem), fun ⟨hb, _⟩ => by
    obtain ⟨hr, -⟩ := hp.place_curr hremain hb
    exact absurd (Prod.mk.inj hr).1 hnew⟩⟩
  prev := hp.curr
  place n r hr := .inr (hp.place_curr hremain hr)
  distinct := .inr hnew
  remain := by
    refine hsize.trans (countP_eq_length.mpr fun n hn => ?_).symm
    obtain ⟨r, hr⟩ := ne_none_iff_exists'.mp ((hp.mem_iff n).mp hn)
    obtain ⟨rfl, hcount⟩ := hp.place_curr hremain hr
    exact Hashmap.contains_iff.mpr ⟨_, Nat.mod_lt _ hcount, hr⟩

theorem Placed.firstArray (hp : Placed h h.all) (hempty : h.all = []) (hprev : h.prev.count = 0)
    (memory : BucketMemory) (nBuckets : Nat) :
    Placed { h with curr := { memory, count := nBuckets } } h.all where
  nodup := hp.nodup
  mem_iff := hp.mem_iff
  curr := ⟨fun _ => nodup_nil, fun i n => ⟨fun hmem => (by cases hmem), fun ⟨hb, _⟩ => by
    have hn := (hp.mem_iff n).mpr (by rw [hb]; simp)
    rw [hempty] at hn
    cases hn⟩⟩
  prev := hp.prev
  place n r hr := by
    have hn := (hp.mem_iff n).mpr (by rw [hr]; simp)
    rw [hempty] at hn
    cases hn
  distinct := .inl hprev
  remain := hp.remain

structure Grown (keyOf : ν → κ) (keyHash : κ → Nat) (h h' : Hashmap ν) : Prop where
  inv : Inv keyOf keyHash h'
  all : h'.all = h.all
  bucket : h'.bucket = h.bucket
  room : h'.size < bucketsCapacity h'.curr.count

section
variable (hinv : Inv keyOf keyHash h) (hfull : h.size = bucketsCapacity h.curr.count)
include hinv hfull

variable {nBuckets : Nat}

theorem Inv.newArray (hn : 0 < nBuckets) (hroom : h.size < bucketsCapacity nBuckets)
    {memory : BucketMemory} (hnew : memory ≠ h.curr.memory) (hnull : memory ≠ .null) {allocations : Nat}
    (hfresh : ∀ id, memory = .arena id → id < allocations) :
    Grown keyOf keyHash h
      { (if h.curr.memory = .null then h
         else { h with prev := h.curr, rehashPos := 0, rehashRemainNodes := h.size }) with
        curr := { memory, count := nBuckets }
        allocations } := by
  have hremain := hinv.full hfull
  by_cases hfirst : h.curr.memory = .null
  · have hcount := hinv.null.mp hfirst
    have hprev := hinv.null_prev hcount
    have hempty : h.all = [] := by
      rw [hcount, hinv.size] at hfull
      exact length_eq_zero_iff.mp hfull
    rw [if_pos hfirst]
    refine ⟨{ hinv with
      placed := { hinv.placed.firstArray hempty hprev memory nBuckets with }
      cursor := ⟨hinv.cursor.passed, hinv.cursor.pos⟩
      le_capacity := hroom.le
      full := fun h => absurd h hroom.ne
      null := ⟨fun e => absurd e hnull, fun e => absurd e hn.ne'⟩
      null_prev := fun e => absurd e hn.ne'
      fresh := hfresh }, rfl, rfl, hroom⟩
  · rw [if_neg hfirst]
    have hcount : 0 < h.curr.count := Nat.pos_of_ne_zero fun e => hfirst (hinv.null.mpr e)
    refine ⟨{ hinv with
      placed := { hinv.placed.newArray hinv.size hremain hnew nBuckets with }
      cursor := ⟨fun i hi => absurd hi (Nat.not_lt_zero i), .inl hcount⟩
      le_capacity := hroom.le
      full := fun h => absurd h hroom.ne
      null := ⟨fun e => absurd e hnull, fun e => absurd e hn.ne'⟩
      null_prev := fun e => absurd e hn.ne'
      fresh := hfresh }, rfl, rfl, hroom⟩

theorem Inv.reallocBuckets (hpos : h.rehashPos = 0) (hn : 0 < nBuckets)
    (hroom : h.size < bucketsCapacity nBuckets) (allocated : Bool) :
    (h.reallocBuckets nBuckets allocated = .ok (false, h) ∧ allocated = false) ∨
      ∃ h', h.reallocBuckets nBuckets allocated = .ok (true, h') ∧ Grown keyOf keyHash h h' := by
  unfold Hashmap.reallocBuckets
  rw [if_neg (not_not.mpr hn), if_neg (not_not.mpr hpos), if_neg (not_not.mpr (hinv.full hfull))]
  by_cases hemb : nBuckets ≤ h.numPreallocatedBuckets ∧ h.curr.memory ≠ .preallocated
  · refine .inr ⟨_, by
      simp only [hemb, true_and, ne_eq, not_false_eq_true, not_true_eq_false, false_and, if_false, if_true]; rfl, ?_⟩
    exact hinv.newArray hfull hn hroom hemb.2.symm (by simp) (by simp)
  · cases allocated with
    | false => exact .inl ⟨by simp only [hemb, not_false_eq_true, and_self, if_true], rfl⟩
    | true =>
      refine .inr ⟨_, by simp only [hemb, not_false_eq_true, Bool.true_eq_false, and_false, if_false]; rfl, ?_⟩
      refine hinv.newArray hfull hn hroom (fun e => ?_) (by simp) fun id hid => ?_
      · exact Nat.lt_irrefl _ (hinv.fresh _ e.symm)
      · cases hid
        exact Nat.lt_succ_self _

end

def Stranded (h : Hashmap ν) : Prop := h.rehashPos ≠ 0

def Full (h : Hashmap ν) : Prop := h.size = bucketsCapacity h.curr.count

section
variable (hinv : Inv keyOf keyHash h)
include hinv

theorem Inv.grow_of_not_full (hfull : ¬ h.Full) (allocated : Bool) : h.grow allocated = .ok (true, h) := by
  unfold Hashmap.grow
  simp only [if_neg (not_not.mpr hinv.le_capacity)]
  exact if_neg hfull

theorem Inv.grow_of_stranded (hfull : h.Full) (hstranded : h.Stranded) (allocated : Bool) :
    ∃ e, h.grow allocated = .error e := by
  obtain ⟨n', hloop, hlt, -⟩ := growLoop_spec h (h.size + 1) h.curr.count (Nat.succ_pos _) (by omega)
  unfold Hashmap.grow
  simp only [if_neg (not_not.mpr hinv.le_capacity)]
  rw [if_pos (show h.size = bucketsCapacity h.curr.count from hfull), hloop, ok_bind, Hashmap.reallocBuckets, if_neg (not_not.mpr (by omega)),
    if_pos (show h.rehashPos ≠ 0 from hstranded)]
  exact ⟨_, rfl⟩

theorem Inv.grow_of_full (hfull : h.Full) (hpos : ¬ h.Stranded) (allocated : Bool) :
    (h.grow allocated = .ok (false, h) ∧ allocated = false) ∨
      ∃ h', h.grow allocated = .ok (true, h') ∧ Grown keyOf keyHash h h' := by
  obtain ⟨n', hloop, hlt, hroom⟩ := growLoop_spec h (h.size + 1) h.curr.count (Nat.succ_pos _) (by omega)
  unfold Hashmap.grow
  simp only [if_neg (not_not.mpr hinv.le_capacity)]
  rw [if_pos (show h.size = bucketsCapacity h.curr.count from hfull), hloop, ok_bind]
  rcases hinv.reallocBuckets hfull (not_not.mp hpos) (by omega) hroom allocated with ⟨heq, halloc⟩ | ⟨h', heq, hgrown⟩
  · exact .inl ⟨by rw [heq, ok_bind]; rfl, halloc⟩
  · refine .inr ⟨h', ?_, hgrown⟩
    rw [heq, ok_bind]
    exact if_pos hgrown.room

end
end

/-! ## Insertion and removal -/

section
variable [DecidableEq ν] {keyOf : ν → κ} {keyHash : κ → Nat} {h : Hashmap ν} {n : ν}

omit [DecidableEq ν] in
/-- The invariant after nodes were moved, for a table that may have become full. -/
theorem Inv.of_rehash {h1 h2 : Hashmap ν} (hplaced : Placed h2 h1.all) (hcursor : Cursor h2)
    (hshape : SameShape h1 h2) (hsize : h1.size = h1.all.length)
    (hkeys : ∀ m ∈ h1.all, ∀ n ∈ h1.all, keyOf m = keyOf n → m = n)
    (hhash : ∀ n ∈ h1.all, h1.hash n = keyHash (keyOf n)) (hle : h1.size ≤ bucketsCapacity h1.curr.count)
    (hfull : h1.Full → h2.rehashRemainNodes = 0) (hnull : h1.curr.memory = .null ↔ h1.curr.count = 0)
    (hcount : 0 < h1.curr.count) (hfresh : ∀ id, h1.curr.memory = .arena id → id < h1.allocations) :
    Inv keyOf keyHash h2 where
  placed := hshape.all ▸ hplaced
  cursor := hcursor
  size := by rw [hshape.size, hshape.all, hsize]
  keys := hshape.all ▸ hkeys
  hash := by rw [hshape.all, hshape.hash]; exact hhash
  le_capacity := by rw [hshape.size, hshape.curr_count]; exact hle
  full heq := hfull (by rw [hshape.size, hshape.curr_count] at heq; exact heq)
  null := by rw [hshape.curr_memory, hshape.curr_count]; exact hnull
  null_prev heq := by rw [hshape.curr_count] at heq; omega
  fresh id hid := by
    rw [hshape.allocations]
    exact hfresh id (hshape.curr_memory ▸ hid)

theorem Placed.setHash {l : List ν} (hp : Placed h l) (hb : h.bucket n = none) (hash : Nat) :
    Placed { h with hash := Function.update h.hash n hash } l :=
  { hp with
    place := fun m r hr => by
      have hne : m ≠ n := fun e => by
        have hr' : h.bucket m = some r := hr
        rw [e, hb] at hr'
        cases hr'
      show (r = (h.curr.memory, Function.update h.hash n hash m % h.curr.count) ∧ _) ∨
        (r = (h.prev.memory, Function.update h.hash n hash m % h.prev.count) ∧ _)
      rw [update_of_ne hne]
      exact hp.place m r hr }

variable [DecidableEq κ]

theorem Inv.insertNode (hinv : Inv keyOf keyHash h) (hroom : h.size < bucketsCapacity h.curr.count)
    (hn : n ∉ h.all) (hkey : ∀ m ∈ h.all, keyOf m ≠ keyOf n) :
    ∃ h', h.insertNode keyOf keyHash n = .ok h' ∧ Inv keyOf keyHash h' ∧ h'.all = h.all ++ [n] := by
  have hcount : 0 < h.curr.count := by
    unfold bucketsCapacity at hroom
    omega
  have hb : h.bucket n = none := by
    by_contra hne
    exact hn ((hinv.placed.mem_iff n).mpr hne)
  have hfind : (h.findNode keyOf (keyHash (keyOf n)) (keyOf n)).isSome ≠ true := fun hsome => by
    obtain ⟨m, hf⟩ := isSome_iff_exists.mp hsome
    obtain ⟨hm, hk⟩ := hinv.findNode_eq_some.mp hf
    exact hkey m hm hk
  let h1 : Hashmap ν := { h with hash := Function.update h.hash n (keyHash (keyOf n)) }
  let h2 := h1.bucketInsert (keyHash (keyOf n) % h.curr.count) n
  let h3 : Hashmap ν := { h2 with all := h2.all ++ [n], size := h2.size + 1 }
  have hplaced : Placed h3 h3.all := by
    have hinsert := (hinv.placed.setHash hb (keyHash (keyOf n))).bucketInsert hn hcount
      (congrArg (· % h.curr.count) (update_self n (keyHash (keyOf n)) h.hash).symm)
    exact { hinsert.perm (perm_append_singleton n h.all).symm with }
  have hcursor : Cursor h3 := ⟨hinv.cursor.passed, hinv.cursor.pos⟩
  obtain ⟨h', hrehash, hplaced', hshape, hcursor', hfull⟩ := proceedRehash_spec hplaced hcursor hcount true
  refine ⟨h', ?_, ?_, hshape.all⟩
  · unfold Hashmap.insertNode
    simp only [hb, ne_eq, not_true_eq_false, if_false, hfind, selectBucket, Nat.pos_iff_ne_zero.mp hcount, ok_bind]
    exact hrehash
  · refine .of_rehash hplaced' hcursor' hshape ?_ ?_ ?_ hroom (hfull rfl) hinv.null hcount hinv.fresh
    · show h.size + 1 = (h.all ++ [n]).length
      rw [hinv.size, length_append, length_singleton]
    · intro m hm m' hm' hk
      rcases mem_append.mp hm with hm | hm <;> rcases mem_append.mp hm' with hm' | hm'
      · exact hinv.keys m hm m' hm' hk
      · exact absurd (hk.trans (congrArg keyOf (mem_singleton.mp hm'))) (hkey m hm)
      · exact absurd (hk.symm.trans (congrArg keyOf (mem_singleton.mp hm))) (hkey m' hm')
      · rw [mem_singleton.mp hm, mem_singleton.mp hm']
    · intro m hm
      show Function.update h.hash n (keyHash (keyOf n)) m = keyHash (keyOf m)
      rcases mem_append.mp hm with hm | hm
      · rw [update_of_ne fun e : m = n => hn (e ▸ hm)]
        exact hinv.hash m hm
      · rw [mem_singleton.mp hm, update_self]

theorem Inv.insertNode_of_duplicate (hinv : Inv keyOf keyHash h)
    (hdup : n ∈ h.all ∨ ∃ m ∈ h.all, keyOf m = keyOf n) : ∃ e, h.insertNode keyOf keyHash n = .error e := by
  unfold Hashmap.insertNode
  by_cases hb : h.bucket n ≠ none
  · exact ⟨_, if_pos hb⟩
  · have hsome : (h.findNode keyOf (keyHash (keyOf n)) (keyOf n)).isSome = true := by
      obtain ⟨m, hm, hk⟩ := hdup.resolve_left fun hn => hb ((hinv.placed.mem_iff n).mp hn)
      rw [hinv.findNode_eq_some.mpr ⟨hm, hk⟩]
      rfl
    simp only [if_neg hb, if_pos hsome]
    exact ⟨_, rfl⟩

omit [DecidableEq κ] in
theorem Inv.remove (hinv : Inv keyOf keyHash h) (hn : n ∈ h.all) (skipRehash : Bool) :
    ∃ h', h.remove n skipRehash = .ok h' ∧ Inv keyOf keyHash h' ∧ h'.all = h.all.erase n := by
  have hcount : 0 < h.curr.count := by
    have hpos := length_pos_of_mem hn
    have hle := hinv.le_capacity
    rw [← hinv.size] at hpos
    unfold bucketsCapacity at hle
    omega
  obtain ⟨h1, hremove, hu⟩ := hinv.placed.bucketRemove hn
  let h2 : Hashmap ν := { h1 with all := h1.all.erase n, size := h1.size - 1 }
  have hall : h2.all = h.all.erase n := congrArg (·.erase n) hu.shape.all
  have hsize : h2.size = h.size - 1 := congrArg (· - 1) hu.shape.size
  have hlen : h2.size = h2.all.length := by
    rw [hall, hsize, hinv.size, length_erase_of_mem hn]
  have hmem : ∀ {m}, m ∈ h2.all → m ∈ h.all := fun hm => mem_of_mem_erase (hall ▸ hm)
  have hplaced : Placed h2 h2.all := by
    rw [hall]
    exact { hu.placed with }
  have hcursor : Cursor h2 := by
    refine ⟨fun i hi => hu.empty i (hinv.cursor.passed i (hu.rehashPos ▸ hi)), ?_⟩
    show h1.rehashPos < h1.prev.count ∨ (h1.rehashPos = 0 ∧ h1.prev.count = 0)
    rw [hu.rehashPos, hu.prev_count]
    exact hinv.cursor.pos
  have hroom : h2.size < bucketsCapacity h2.curr.count := by
    have hle := hinv.le_capacity
    have hpos := length_pos_of_mem hn
    show h2.size < bucketsCapacity h1.curr.count
    rw [hsize, hu.shape.curr_count]
    have := hinv.size
    omega
  have hfinal : ∀ {h'}, Placed h' h2.all → SameShape h2 h' → Cursor h' → Inv keyOf keyHash h' := by
    intro h' hp hs hc
    refine .of_rehash hp hc hs hlen (fun m hm m' hm' => hinv.keys m (hmem hm) m' (hmem hm')) (fun m hm => ?_) hroom.le
      (fun hfull => absurd hfull hroom.ne) ?_ (hu.shape.curr_count ▸ hcount) fun id hid => ?_
    · show h1.hash m = _
      rw [hu.shape.hash]
      exact hinv.hash m (hmem hm)
    · show h1.curr.memory = .null ↔ h1.curr.count = 0
      rw [hu.shape.curr_memory, hu.shape.curr_count]
      exact hinv.null
    · show id < h1.allocations
      rw [hu.shape.allocations]
      exact hinv.fresh id (hu.shape.curr_memory ▸ hid)
  have hstart : h.remove n skipRehash = if skipRehash then .ok h2 else h2.proceedRehash false := by
    unfold Hashmap.remove
    rw [if_neg (not_not.mpr (hinv.contains_iff.mpr hn)), hremove]
    rfl
  cases skipRehash with
  | true => exact ⟨h2, hstart, hfinal hplaced (.refl h2) hcursor, hall⟩
  | false =>
    obtain ⟨h', hrehash, hplaced', hshape, hcursor', -⟩ :=
      proceedRehash_spec hplaced hcursor (show 0 < h1.curr.count from hu.shape.curr_count ▸ hcount) false
    exact ⟨h', hstart.trans hrehash, hfinal hplaced' hshape hcursor', hshape.all.trans hall⟩

end

end Roc.Core.Hashmap
