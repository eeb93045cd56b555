import RocToolkit.Core.HashmapInvariant

/-!
# RocToolkit.Core.HashmapCalls

Sequences of calls of a hash map.

* `Run`   : the calls that return, with the nodes that were inserted and not removed since.
* `calls` : a sequence of calls, which stops at the first check that fails.

Lookups find exactly the members at every moment of rehashing. Of the checks only one can fail: a growth needs the
cursor at the first bucket, and a removal that empties the previous array leaves it where it is.
-/

namespace Roc.Core.Hashmap

variable {ν κ : Type} [DecidableEq ν] [DecidableEq κ]

inductive Call (ν : Type) where
  | insert (node : ν) (allocated : Bool)
  | remove (node : ν)
  | grow (allocated : Bool)
deriving DecidableEq, Repr

section
variable (keyOf : ν → κ) (keyHash : κ → Nat)

def call (h : Hashmap ν) : Call ν → Except Fault (Bool × Hashmap ν)
  | .insert node allocated => h.insert keyOf keyHash node allocated
  | .remove node => do
    let h ← h.remove node false
    .ok (true, h)
  | .grow allocated => h.grow allocated

def calls (h : Hashmap ν) : List (Call ν) → Except Fault (Hashmap ν)
  | [] => .ok h
  | c :: cs => do
    let (_, h) ← h.call keyOf keyHash c
    h.calls cs

def Call.members (c : Call ν) (succeeded : Bool) (members : List ν) : List ν :=
  match c with
  | .insert node _ => if succeeded then members ++ [node] else members
  | .remove node => members.erase node
  | .grow _ => members

inductive Run (numPreallocated : Nat) : Hashmap ν → List ν → Prop
  | start : Run numPreallocated { numPreallocatedBuckets := numPreallocated } []
  | call {h h' : Hashmap ν} {members : List ν} {c : Call ν} {succeeded : Bool} :
      Run numPreallocated h members → h.call keyOf keyHash c = .ok (succeeded, h') →
      Run numPreallocated h' (c.members succeeded members)

end

/-- The loop over the members with `front` and `nextof`. -/
def iterate (h : Hashmap ν) : Nat → Option ν → Except Fault (List ν)
  | _, none => .ok []
  | 0, some _ => .error .outOfFuel
  | fuel + 1, some node => do
    let next ← h.nextof node
    let rest ← h.iterate fuel next
    .ok (node :: rest)

def enumerate (h : Hashmap ν) : Except Fault (List ν) := h.iterate h.size h.front

def Blocked (h : Hashmap ν) : Prop := h.Full ∧ h.Stranded

instance (h : Hashmap ν) : Decidable h.Blocked := inferInstanceAs (Decidable (_ = _ ∧ _ ≠ _))

def Call.Grows : Call ν → Prop
  | .remove _ => False
  | _ => True

instance (c : Call ν) : Decidable c.Grows := by
  cases c <;> unfold Call.Grows <;> infer_instance

def Call.Valid (keyOf : ν → κ) (members : List ν) : Call ν → Prop
  | .insert node _ => node ∉ members ∧ ∀ m ∈ members, keyOf m ≠ keyOf node
  | .remove node => node ∈ members
  | .grow _ => True

instance (keyOf : ν → κ) (members : List ν) : DecidablePred (Call.Valid keyOf members)
  | .insert node _ => inferInstanceAs (Decidable (node ∉ members ∧ ∀ m ∈ members, keyOf m ≠ keyOf node))
  | .remove node => inferInstanceAs (Decidable (node ∈ members))
  | .grow _ => inferInstanceAs (Decidable True)

/-! ## One call -/

section
variable {keyOf : ν → κ} {keyHash : κ → Nat} {h h' : Hashmap ν} {n : ν} {succeeded : Bool}

section
variable (hinv : Inv keyOf keyHash h)
include hinv

omit [DecidableEq ν] [DecidableEq κ] in
theorem Inv.grow_returns (hfree : ¬ h.Blocked) (allocated : Bool) :
    ∃ succeeded h', h.grow allocated = .ok (succeeded, h') ∧ Inv keyOf keyHash h' ∧ h'.all = h.all ∧
      (succeeded = true → h'.size < bucketsCapacity h'.curr.count) := by
  by_cases hfull : h.Full
  · rcases hinv.grow_of_full hfull (fun hs => hfree ⟨hfull, hs⟩) allocated with ⟨heq, -⟩ | ⟨h', heq, hgrown⟩
    · exact ⟨false, h, heq, hinv, rfl, fun hcontra => by cases hcontra⟩
    · exact ⟨true, h', heq, hgrown.inv, hgrown.all, fun _ => hgrown.room⟩
  · exact ⟨true, h, hinv.grow_of_not_full hfull allocated, hinv, rfl, fun _ => lt_of_le_of_ne hinv.le_capacity hfull⟩

theorem Inv.insert_eq (n : ν) (allocated : Bool) : h.insert keyOf keyHash n allocated = (do
      let (grown, h) ← h.grow allocated
      if grown = false then .ok (false, h)
      else
        let h ← h.insertNode keyOf keyHash n
        .ok (true, h)) := by
  unfold insert
  by_cases hroom : h.size ≥ bucketsCapacity h.curr.count
  · rw [if_pos hroom]
  · rw [if_neg hroom, hinv.grow_of_not_full (fun hfull : h.size = _ => hroom hfull.ge)]

theorem Inv.call_of_blocked {c : Call ν} (hgrows : c.Grows) (hblocked : h.Blocked) :
    ∃ e, h.call keyOf keyHash c = .error e := by
  cases c with
  | insert node allocated =>
    obtain ⟨e, he⟩ := hinv.grow_of_stranded hblocked.1 hblocked.2 allocated
    refine ⟨e, ?_⟩
    show h.insert keyOf keyHash node allocated = _
    rw [hinv.insert_eq, he]
    rfl
  | remove node => cases hgrows
  | grow allocated => exact hinv.grow_of_stranded hblocked.1 hblocked.2 allocated

theorem Inv.call_returns {c : Call ν} (hvalid : c.Valid keyOf h.all) (hfree : ¬ (c.Grows ∧ h.Blocked)) :
    ∃ succeeded h', h.call keyOf keyHash c = .ok (succeeded, h') ∧ Inv keyOf keyHash h' ∧
      h'.all = c.members succeeded h.all := by
  cases c with
  | insert node allocated =>
    obtain ⟨hn, hkey⟩ := hvalid
    obtain ⟨grown, h1, hgrow, hinv1, hall, hroom⟩ := hinv.grow_returns (fun hb => hfree ⟨trivial, hb⟩) allocated
    show ∃ succeeded h', h.insert keyOf keyHash node allocated = _ ∧ _
    rw [hinv.insert_eq, hgrow]
    cases grown with
    | false => exact ⟨false, h1, rfl, hinv1, hall⟩
    | true =>
      obtain ⟨h2, hinsert, hinv2, hall2⟩ := hinv1.insertNode (hroom rfl) (hall ▸ hn) (hall ▸ hkey)
      refine ⟨true, h2, ?_, hinv2, by rw [hall2, hall]; rfl⟩
      simp only [ok_bind, hinsert]
      rfl
  | remove node =>
    obtain ⟨h', hremove, hinv', hall⟩ := hinv.remove hvalid false
    refine ⟨true, h', ?_, hinv', hall⟩
    simp only [call, hremove, ok_bind]
  | grow allocated =>
    obtain ⟨grown, h1, hgrow, hinv1, hall, -⟩ := hinv.grow_returns (fun hb => hfree ⟨trivial, hb⟩) allocated
    exact ⟨grown, h1, hgrow, hinv1, hall⟩

section
variable {c : Call ν} (hcall : h.call keyOf keyHash c = .ok (succeeded, h'))
include hcall

theorem Inv.valid_of_returns : c.Valid keyOf h.all ∨ (Inv keyOf keyHash h' ∧ h'.all = c.members succeeded h.all) := by
  cases c with
  | insert node allocated =>
    have hcall : h.insert keyOf keyHash node allocated = .ok (succeeded, h') := hcall
    by_cases hblocked : h.Blocked
    · obtain ⟨e, he⟩ := hinv.call_of_blocked (c := .insert node allocated) trivial hblocked
      exact absurd (hcall.symm.trans he) (by simp)
    · obtain ⟨grown, h1, hgrow, hinv1, hall, hroom⟩ := hinv.grow_returns hblocked allocated
      rw [hinv.insert_eq, hgrow] at hcall
      cases grown with
      | false =>
        cases hcall
        exact .inr ⟨hinv1, hall⟩
      | true =>
        refine .inl ?_
        by_contra hnot
        have hdup : node ∈ h1.all ∨ ∃ m ∈ h1.all, keyOf m = keyOf node := by
          rw [hall]
          by_contra hnone
          push Not at hnone
          exact hnot hnone
        obtain ⟨e, he⟩ := hinv1.insertNode_of_duplicate hdup
        simp only [ok_bind, he] at hcall
        cases hcall
  | remove node =>
    refine .inl (hinv.contains_iff.mp ?_)
    by_contra hnot
    simp only [Hashmap.call, Hashmap.remove, if_pos hnot] at hcall
    cases hcall
  | grow allocated => exact .inl trivial

theorem Inv.call_ok : Inv keyOf keyHash h' ∧ h'.all = c.members succeeded h.all := by
  rcases hinv.valid_of_returns hcall with hvalid | hdone
  · by_cases hblocked : c.Grows ∧ h.Blocked
    · obtain ⟨e, he⟩ := hinv.call_of_blocked hblocked.1 hblocked.2
      exact absurd (hcall.symm.trans he) (by simp)
    · obtain ⟨s, h1, heq, hspec⟩ := hinv.call_returns hvalid hblocked
      cases hcall.symm.trans heq
      exact hspec
  · exact hdone

end
end

/-! ## Lookups -/

omit [DecidableEq κ] in
theorem Inv.nextof_eq (hinv : Inv keyOf keyHash h) {before after : List ν} (hall : h.all = before ++ n :: after) :
    h.nextof n = .ok after.head? := by
  have hmem : n ∈ h.all := by simp [hall]
  have hbefore : ∀ m ∈ before, decide (m ≠ n) = true := by
    intro m hm
    have hnodup := hinv.placed.nodup
    rw [hall, List.nodup_append] at hnodup
    exact decide_eq_true (hnodup.2.2 m hm n (by simp))
  unfold nextof
  rw [if_neg (not_not.mpr (hinv.contains_iff.mpr hmem)), hall, List.dropWhile_append_of_pos hbefore]
  simp

omit [DecidableEq κ] in
theorem Inv.iterate_eq (hinv : Inv keyOf keyHash h) (after before : List ν) (hall : h.all = before ++ after)
    (fuel : Nat) (hfuel : after.length ≤ fuel) : h.iterate fuel after.head? = .ok after := by
  induction after generalizing before fuel with
  | nil => unfold iterate; rfl
  | cons n after ih =>
    cases fuel with
    | zero => simp at hfuel
    | succ fuel =>
      have hrest := ih (before ++ [n]) (by simp [hall]) fuel (Nat.le_of_succ_le_succ hfuel)
      simp only [List.head?_cons, iterate, hinv.nextof_eq hall, ok_bind, hrest]

omit [DecidableEq κ] in
theorem Inv.enumerate_eq (hinv : Inv keyOf keyHash h) : h.enumerate = .ok h.all := by
  have hfront : h.front = h.all.head? := by
    unfold front
    split
    · next hzero =>
      have hempty : h.all = [] := List.length_eq_zero_iff.mp (hinv.size ▸ hzero)
      rw [hempty, List.head?_nil]
    · rfl
  rw [enumerate, hfront]
  exact hinv.iterate_eq h.all [] rfl h.size hinv.size.ge

theorem Run.inv {numPreallocated : Nat} {members : List ν} (hrun : Run keyOf keyHash numPreallocated h members) :
    Inv keyOf keyHash h ∧ h.all = members := by
  induction hrun with
  | start => exact ⟨inv_empty keyOf keyHash numPreallocated, rfl⟩
  | call _ hcall ih =>
    obtain ⟨hinv, hall⟩ := ih
    exact hall ▸ hinv.call_ok hcall

end

/-- At every moment of a run the map answers for the nodes that were inserted and not removed since. -/
structure Answers (keyOf : ν → κ) (keyHash : κ → Nat) (h : Hashmap ν) (members : List ν) : Prop where
  find : ∀ k n, h.findNode keyOf (keyHash k) k = some n ↔ n ∈ members ∧ keyOf n = k
  size : h.size = members.length
  contains : ∀ n, h.contains n = true ↔ n ∈ members
  enumerate : h.enumerate = .ok members

theorem run_answers (keyOf : ν → κ) (keyHash : κ → Nat) (numPreallocated : Nat) (h : Hashmap ν)
    (members : List ν) (hrun : Run keyOf keyHash numPreallocated h members) :
    Answers keyOf keyHash h members := by
  obtain ⟨hinv, rfl⟩ := hrun.inv
  exact {
    find := fun k n => hinv.findNode_eq_some
    size := hinv.size
    contains := fun n => hinv.contains_iff
    enumerate := hinv.enumerate_eq }

def runFrom (keyOf : ν → κ) (keyHash : κ → Nat) : List (Call ν) → Hashmap ν × List ν → Option (Hashmap ν × List ν)
  | [], r => some r
  | c :: cs, (h, members) =>
    (h.call keyOf keyHash c).toOption.bind fun r => runFrom keyOf keyHash cs (r.2, c.members r.1 members)

theorem Run.runFrom {keyOf : ν → κ} {keyHash : κ → Nat} {numPreallocated : Nat} {h' : Hashmap ν} {members' : List ν} :
    ∀ (cs : List (Call ν)) {h : Hashmap ν} {members : List ν}, Run keyOf keyHash numPreallocated h members →
      runFrom keyOf keyHash cs (h, members) = some (h', members') → Run keyOf keyHash numPreallocated h' members'
  | [], _, _, hrun, hr => by
    cases hr
    exact hrun
  | c :: cs, _, _, hrun, hr => by
    obtain ⟨⟨succeeded, h1⟩, hcall, hr⟩ := Option.bind_eq_some_iff.mp hr
    exact Run.runFrom cs (hrun.call (toOption_eq_some hcall)) hr

/-- Forty insertions into six embedded buckets, so that the nodes are moved to a new array, and a removal while
they are. -/
def movingCalls : List (Call Nat) := (List.range 40).map (.insert · true) ++ [.remove 20]

theorem run_answers_moving : ∃ (h : Hashmap Nat) (members : List Nat), h.rehashRemainNodes ≠ 0 ∧ members.length = 39 ∧
    Answers id id h members := by
  have hrun : ((runFrom id id movingCalls ({ numPreallocatedBuckets := 6 }, [])).any fun r =>
      r.1.rehashRemainNodes ≠ 0 ∧ r.2.length = 39) = true := by
    decide +kernel
  obtain ⟨⟨h, members⟩, hr, hmoving⟩ := (Option.any_eq_true _ _).mp hrun
  obtain ⟨hremain, hlength⟩ := of_decide_eq_true hmoving
  exact ⟨h, members, hremain, hlength, run_answers id id 6 h members (Run.runFrom _ .start hr)⟩

/-! ## Checks -/

section
variable (keyOf : ν → κ) (keyHash : κ → Nat)

/-- Every call of a sequence is made with `p` of the members and the state before it, up to the first panic. -/
def Along (p : List ν → Hashmap ν → Call ν → Prop) : List ν → Hashmap ν → List (Call ν) → Prop
  | _, _, [] => True
  | members, h, c :: cs => p members h c ∧
    ∀ succeeded h', h.call keyOf keyHash c = .ok (succeeded, h') → Along p (c.members succeeded members) h' cs

variable {p : List ν → Hashmap ν → Call ν → Prop} {members : List ν} {keyOf keyHash} in
theorem along_cons_of_ok {h h' : Hashmap ν} {c : Call ν}
    {succeeded : Bool} (hcall : h.call keyOf keyHash c = .ok (succeeded, h')) (cs : List (Call ν)) :
    Along keyOf keyHash p members h (c :: cs) ↔
      p members h c ∧ Along keyOf keyHash p (c.members succeeded members) h' cs := by
  refine and_congr_right fun _ => ⟨fun hrest => hrest succeeded h' hcall, fun hrest s h1 h1eq => ?_⟩
  cases hcall.symm.trans h1eq
  exact hrest

variable {keyOf keyHash} in
theorem along_cons_of_error {h : Hashmap ν} {c : Call ν}
    {e : Fault} (hcall : h.call keyOf keyHash c = .error e) (cs : List (Call ν)) :
    Along keyOf keyHash p members h (c :: cs) ↔ p members h c :=
  and_iff_left fun _ _ heq => by rw [hcall] at heq; cases heq

instance decidableAlong (p : List ν → Hashmap ν → Call ν → Prop) [∀ members h c, Decidable (p members h c)] :
    ∀ (members : List ν) (h : Hashmap ν) (cs : List (Call ν)), Decidable (Along keyOf keyHash p members h cs)
  | _, _, [] => .isTrue trivial
  | members, h, c :: cs =>
    match hcall : h.call keyOf keyHash c with
    | .ok (succeeded, h') =>
      have := decidableAlong p (c.members succeeded members) h' cs
      decidable_of_iff _ (along_cons_of_ok hcall cs).symm
    | .error _ => decidable_of_iff _ (along_cons_of_error hcall cs).symm

end

section
variable {keyOf : ν → κ} {keyHash : κ → Nat} {h : Hashmap ν}

theorem Inv.calls_ok_iff (hinv : Inv keyOf keyHash h) (cs : List (Call ν))
    (hvalid : Along keyOf keyHash (fun members _ c => c.Valid keyOf members) h.all h cs) :
    (∃ h', h.calls keyOf keyHash cs = .ok h') ↔
      Along keyOf keyHash (fun _ h c => ¬ (c.Grows ∧ h.Blocked)) h.all h cs := by
  induction cs generalizing h with
  | nil => exact ⟨fun _ => trivial, fun _ => ⟨h, rfl⟩⟩
  | cons c cs ih =>
    obtain ⟨hc, hrest⟩ := hvalid
    by_cases hblocked : c.Grows ∧ h.Blocked
    · obtain ⟨e, he⟩ := hinv.call_of_blocked hblocked.1 hblocked.2
      refine ⟨fun ⟨h', hcalls⟩ => ?_, fun hfree => absurd hblocked hfree.1⟩
      rw [calls, he] at hcalls
      cases hcalls
    · obtain ⟨succeeded, h1, heq, hinv1, hall⟩ := hinv.call_returns hc hblocked
      have hih := ih hinv1 (hall ▸ hrest succeeded h1 heq)
      rw [calls, heq, ok_bind, hih, hall, along_cons_of_ok heq]
      exact (and_iff_right hblocked).symm

end

/-- Calls with distinct keys that remove members only return, all of them, when and only when none of them has to grow
a full table while the cursor is inside the previous array. -/
theorem calls_return_iff (keyOf : ν → κ) (keyHash : κ → Nat) (numPreallocated : Nat) (cs : List (Call ν))
    (hvalid : Along keyOf keyHash (fun members _ c => c.Valid keyOf members) []
      { numPreallocatedBuckets := numPreallocated } cs) :
    (∃ h', Hashmap.calls keyOf keyHash { numPreallocatedBuckets := numPreallocated } cs = .ok h') ↔
      Along keyOf keyHash (fun _ h c => ¬ (c.Grows ∧ h.Blocked)) []
        { numPreallocatedBuckets := numPreallocated } cs :=
  (inv_empty keyOf keyHash numPreallocated).calls_ok_iff cs hvalid

theorem calls_return_iff_moving :
    ∃ h', Hashmap.calls (id : Nat → Nat) id { numPreallocatedBuckets := 6 } movingCalls = .ok h' :=
  (calls_return_iff id id 6 movingCalls (by decide +kernel)).mpr (by decide +kernel)

/-- With the identity as hash and six embedded buckets: thirty-three insertions, the last of which grows the table;
removals of nodes that are still in the previous array, until it is empty; and insertions up to the next growth. -/
def strandingCalls : List (Call Nat) := (List.range 33).map (.insert · true) ++
    [4, 9, 14, 19, 24, 29, 3, 8, 13, 18, 23, 28, 27, 22, 17, 12].map .remove ++
    (List.range 133).map (fun i => .insert (33 + i) true)

theorem strandingCalls_panic :
    Along (id : Nat → Nat) id (fun members _ c => c.Valid id members) [] { numPreallocatedBuckets := 6 }
        strandingCalls ∧
      ¬ ∃ h, Hashmap.calls (id : Nat → Nat) id { numPreallocatedBuckets := 6 } strandingCalls = .ok h := by
  have hisOk : (Hashmap.calls (id : Nat → Nat) id { numPreallocatedBuckets := 6 } strandingCalls).isOk =
      false := by decide +kernel
  refine ⟨by decide +kernel, fun ⟨h, hcalls⟩ => ?_⟩
  rw [hcalls] at hisOk
  cases hisOk

end Roc.Core.Hashmap
