import RocToolkit.Core.MpscInvariant
import Mathlib.Tactic.Common

/-!
# RocToolkit.Core.MpscCorrect

What the users of the queue rely on: elements are returned in the order in which the tail was exchanged, a consumer
that goes on popping gets every element, and an element that was returned is not touched any more.
-/

open Function (update update_comm update_of_ne update_self)

namespace Roc.Core.MpscQueue

open List

open LinkedQueue (PushPc WF)

variable {ν π : Type} [DecidableEq ν] [DecidableEq π]

/-! ## The order of the calls -/

def entering (p : π) : Producer ν → List (π × ν)
  | .pushNode n .clear => [(p, n)]
  | .pushNode n .exchange => [(p, n)]
  | _ => []

def ofProducer (p : π) (l : List (π × ν)) : List (π × ν) := l.filter fun x => x.1 = p

variable {s s' : State ν π} {canSpin : Bool} {new evs : List (Event ν π)} {rest : List (Ptr ν)}

omit [DecidableEq π] in
theorem popFront_frame {pc : PopPc ν} (h : s.popFront canSpin pc = .ok (s', new)) :
    s'.producers = s.producers ∧ calls new = [] ∧ exchanges new = [] := by
  have hgo : ∀ {t : State ν π} {pc'}, t.producers = s.producers → t.goTo canSpin pc' = .ok (s', new) →
      s'.producers = s.producers ∧ calls new = [] ∧ exchanges new = [] := by
    rintro t pc' ht ⟨⟩
    exact ⟨ht, rfl, rfl⟩
  have hnull : s.returnNull canSpin = .ok (s', new) →
      s'.producers = s.producers ∧ calls new = [] ∧ exchanges new = [] := by
    rintro ⟨⟩
    exact ⟨rfl, rfl, rfl⟩
  have hwait : ∀ {x tries found again}, s.wait canSpin x tries found again = .ok (s', new) →
      s'.producers = s.producers ∧ calls new = [] ∧ exchanges new = [] := by
    intro x tries found again h
    unfold State.wait at h
    split at h
    · exact hgo rfl h
    · split at h
      · exact hnull h
      · exact hgo rfl h
  cases pc with
  | loadHead => exact hgo rfl h
  | loadNext head =>
    simp only [State.popFront] at h
    split at h <;> exact hgo rfl h
  | checkTail head =>
    simp only [State.popFront] at h
    split at h
    · exact hnull h
    · exact hgo rfl h
  | waitStub head tries => exact hwait h
  | dropStub b => exact hgo (t := { s with head := b }) rfl h
  | reloadNext head =>
    simp only [State.popFront] at h
    split at h <;> exact hgo rfl h
  | checkLast head => exact hgo rfl h
  | pushStub head pc =>
    exact hgo (t := { s with next := (s.pushNode .stub pc).next, tail := (s.pushNode .stub pc).tail }) rfl h
  | waitNext head tries => exact hwait h
  | moveHead head b => exact hgo (t := { s with head := b }) rfl h
  | changeOwner x =>
    simp only [State.popFront, State.changeOwner] at h
    split at h
    · cases x <;> cases h <;> exact ⟨rfl, rfl, rfl⟩
    · cases h

omit [DecidableEq ν] in
theorem ofProducer_append (p : π) (l l' : List (π × ν)) :
    ofProducer p (l ++ l') = ofProducer p l ++ ofProducer p l' := filter_append _ _

omit [DecidableEq ν] in
theorem ofProducer_singleton (p q : π) (n : ν) : ofProducer p [(q, n)] = if q = p then [(q, n)] else [] := by
  by_cases h : q = p <;> simp [ofProducer, h]

omit [DecidableEq ν] [DecidableEq π] in
theorem calls_append (evs new : List (Event ν π)) : calls (evs ++ new) = calls evs ++ calls new := filterMap_append

omit [DecidableEq ν] [DecidableEq π] in
theorem exchanges_append (evs new : List (Event ν π)) : exchanges (evs ++ new) = exchanges evs ++ exchanges new :=
  filterMap_append

omit [DecidableEq ν] [DecidableEq π] in
theorem pops_append (evs new : List (Event ν π)) : pops (evs ++ new) = pops evs ++ pops new := filterMap_append

theorem entering_pushBack (s : State ν π) (p q : π) (n : ν) (pc : PushPc (Ptr ν))
    (hq : s.producers q = .pushNode n pc) :
    calls (s.pushBack q n pc).2 = [] ∧
      entering p (s.producers p) =
        ofProducer p (exchanges (s.pushBack q n pc).2) ++ entering p ((s.pushBack q n pc).1.producers p) := by
  by_cases hp : q = p
  · subst hp
    rw [hq]
    simp only [State.pushBack, update_self]
    cases pc with
    | clear => exact ⟨rfl, rfl⟩
    | exchange =>
      refine ⟨rfl, ?_⟩
      show [(q, n)] = ofProducer q [(q, n)] ++ []
      rw [ofProducer_singleton, if_pos rfl, append_nil]
    | link prev => exact ⟨rfl, rfl⟩
  · have hother : (s.pushBack q n pc).1.producers p = s.producers p := update_of_ne (Ne.symm hp) ..
    rw [hother]
    cases pc with
    | clear => exact ⟨rfl, rfl⟩
    | exchange =>
      refine ⟨rfl, ?_⟩
      show _ = ofProducer p [(q, n)] ++ _
      rw [ofProducer_singleton, if_neg hp, nil_append]
    | link prev => exact ⟨rfl, rfl⟩

theorem calls_eq (h : Run s evs) (p : π) :
    ofProducer p (calls evs) = ofProducer p (exchanges evs) ++ entering p (s.producers p) := by
  induction h with
  | start => rfl
  | @step s s' evs new a _ hs ih =>
    rw [calls_append, exchanges_append, ofProducer_append, ofProducer_append, ih, append_assoc, append_assoc]
    congr 1
    cases a with
    | push q n =>
      simp only [State.step] at hs
      split at hs
      · next hq =>
        obtain ⟨s1, h1, hs⟩ := bind_eq_ok.mp hs
        unfold State.changeOwner at h1
        split at h1 <;> cases h1
        cases hs
        show _ ++ ofProducer p [(q, n)] = [] ++ entering p (update s.producers q (.pushNode n .clear) p)
        rw [ofProducer_singleton, nil_append]
        by_cases hp : q = p
        · subst hp
          rw [hq, if_pos rfl, update_self]
          rfl
        · rw [if_neg hp, update_of_ne (Ne.symm hp), append_nil]
      · cases hs
        exact append_nil _
    | produce q =>
      simp only [State.step] at hs
      split at hs
      · cases hs
        exact append_nil _
      · next n pc hq =>
        obtain ⟨rfl, rfl⟩ : (s.pushBack q n pc).1 = s' ∧ (s.pushBack q n pc).2 = new := by
          rw [Except.ok.inj hs]
          exact ⟨rfl, rfl⟩
        obtain ⟨hcalls, henter⟩ := entering_pushBack s p q n pc hq
        rw [hcalls, henter]
        exact append_nil _
    | pop canSpin =>
      simp only [State.step] at hs
      split at hs <;> cases hs <;> exact append_nil _
    | consume =>
      simp only [State.step] at hs
      split at hs
      · cases hs
        exact append_nil _
      · obtain ⟨hprod, hcalls, hexch⟩ := popFront_frame hs
        rw [hprod, hcalls, hexch]
        exact append_nil _

/-! ## Empty queues -/

def remaining (s : State ν π) (rest : List (Ptr ν)) : List ν := s.consumer.holding ++ nodes (s.head :: rest)

omit [DecidableEq π] in
theorem Inv.remaining_eq_nil (h : Inv s evs rest) :
    remaining s rest = [] ↔ pops evs = (exchanges evs).map Prod.snd := by
  rw [h.order, append_assoc]
  exact self_eq_append_right.symm

omit [DecidableEq ν] [DecidableEq π] in
theorem null_wait {x : Ptr ν} {tries : Nat} {found : Ptr ν → PopPc ν}
    {again : Nat → PopPc ν} (h : s.wait canSpin x tries found again = .ok (s', new)) : .null true ∉ new := by
  unfold State.wait at h
  split at h
  · cases h
    exact not_mem_nil
  · split at h
    · next hspin =>
      cases h
      cases canSpin with
      | false => exact fun hmem => by cases mem_singleton.mp hmem
      | true => cases hspin
    · cases h
      exact not_mem_nil

/-- A blocking pop returns `NULL` only where the list is the stub alone. -/
theorem Inv.null_empty (h : Inv s evs rest)
    (hs : s.step .consume = .ok (s', new)) (hnull : .null true ∈ new) : remaining s rest = [] := by
  simp only [State.step] at hs
  split at hs
  · cases hs
    cases hnull
  · next canSpin pc hc =>
    have hknows := h.knows
    rw [hc] at hknows
    cases pc with
    | checkTail head =>
      obtain ⟨rfl, hstub⟩ := hknows
      simp only [State.popFront] at hs
      split at hs
      · next htail =>
        rw [remaining, hc, h.wf.rest_eq_nil htail, hstub]
        rfl
      · cases hs
        cases hnull
    | waitStub head tries | waitNext head tries => exact absurd hnull (null_wait hs)
    | loadNext head | reloadNext head =>
      simp only [State.popFront] at hs
      split at hs <;> cases hs <;> cases hnull
    | changeOwner x =>
      simp only [State.popFront, State.changeOwner] at hs
      split at hs
      · cases x with
        | stub =>
          cases hs
          cases hnull
        | node n =>
          cases hs
          cases mem_singleton.mp hnull
      · cases hs
    | loadHead => cases hs; cases hnull
    | dropStub b => cases hs; cases hnull
    | checkLast head => cases hs; cases hnull
    | pushStub head pc => cases hs; cases hnull
    | moveHead head b => cases hs; cases hnull

/-! ## Elements outside the queue -/

def State.setNode (s : State ν π) (n : ν) (next : Option (Ptr ν)) (queue : Bool) : State ν π :=
  { s with next := update s.next (.node n) next, queue := update s.queue (.node n) queue }

def Untouched (s : State ν π) (a : Action ν π) (n : ν) : Prop :=
  ∀ next queue, (s.setNode n next queue).step a = (s.step a).map fun r => (r.1.setNode n next queue, r.2)

def pushTouches (x : Ptr ν) : PushPc (Ptr ν) → List (Ptr ν)
  | .clear => [x]
  | .exchange => []
  | .link prev => [prev]

def popTouches : PopPc ν → List (Ptr ν)
  | .loadHead => []
  | .loadNext head => [head]
  | .checkTail _ => []
  | .waitStub head _ => [head]
  | .dropStub _ => []
  | .reloadNext head => [head]
  | .checkLast _ => []
  | .pushStub _ pc => pushTouches .stub pc
  | .waitNext head _ => [head]
  | .moveHead _ _ => []
  | .changeOwner x => [x]

section
variable {s : State ν π} {evs : List (Event ν π)} {rest : List (Ptr ν)} {n : ν} {next : Option (Ptr ν)} {queue : Bool}

variable {x : Ptr ν} {pc : PushPc (Ptr ν)} {canSpin : Bool}

omit [DecidableEq π] in
theorem next_setNode (h : .node n ≠ x) : (s.setNode n next queue).next x = s.next x := update_of_ne h.symm ..

omit [DecidableEq π] in
theorem pushNode_setNode (s : State ν π) (next : Option (Ptr ν)) (queue : Bool) (h : .node n ∉ pushTouches x pc) :
    (s.setNode n next queue).pushNode x pc =
      { next := update (s.pushNode x pc).next (.node n) next
        tail := (s.pushNode x pc).tail
        pc := (s.pushNode x pc).pc } := by
  cases pc with
  | clear =>
    have hne : .node n ≠ x := fun e => h (mem_singleton.mpr e)
    simp only [State.pushNode, State.setNode, update_comm hne.symm]
  | exchange => rfl
  | link prev =>
    have hne : .node n ≠ prev := fun e => h (mem_singleton.mpr e)
    simp only [State.pushNode, State.setNode, update_comm hne.symm]

omit [DecidableEq π] in
theorem wait_setNode {tries : Nat} {found : Ptr ν → PopPc ν} {again : Nat → PopPc ν} (h : .node n ≠ x) :
    (s.setNode n next queue).wait canSpin x tries found again =
      (s.wait canSpin x tries found again).map fun r => (r.1.setNode n next queue, r.2) := by
  unfold State.wait
  rw [next_setNode h]
  split
  · rfl
  · split <;> rfl

omit [DecidableEq π] in
theorem popFront_setNode {pc : PopPc ν} (h : .node n ∉ popTouches pc) : (s.setNode n next queue).popFront canSpin pc =
      (s.popFront canSpin pc).map fun r => (r.1.setNode n next queue, r.2) := by
  have hne : ∀ {x}, popTouches pc = [x] → .node n ≠ x := fun hx e => h (hx ▸ mem_singleton.mpr e)
  cases pc with
  | loadHead => rfl
  | loadNext head =>
    simp only [State.popFront, next_setNode (hne rfl)]
    split <;> rfl
  | checkTail head =>
    simp only [State.popFront]
    show (if s.tail = head then _ else _) = _
    split <;> rfl
  | waitStub head tries => exact wait_setNode (hne rfl)
  | dropStub b => rfl
  | reloadNext head =>
    simp only [State.popFront, next_setNode (hne rfl)]
    split <;> rfl
  | checkLast head => rfl
  | pushStub head pc =>
    simp only [State.popFront, pushNode_setNode s next queue h]
    rfl
  | waitNext head tries => exact wait_setNode (hne rfl)
  | moveHead head b => rfl
  | changeOwner x =>
    have hx := hne rfl
    have hqueue : (s.setNode n next queue).queue x = s.queue x := update_of_ne hx.symm ..
    simp only [State.popFront, State.changeOwner, hqueue]
    split
    · simp only [ok_bind, State.setNode, Except.map, update_comm hx.symm]
    · rfl

omit [DecidableEq π] in
theorem Inv.queue_of_pushTouches {t : Option π} (h : Inv s evs rest)
    (ht : s.push t = some (x, pc)) (hn : .node n ∈ pushTouches x pc) : s.queue (.node n) = true := by
  cases pc with
  | clear =>
    obtain rfl : .node n = x := mem_singleton.mp hn
    obtain ⟨p, hp⟩ := producers_of_push ht
    exact h.pushing p n _ hp
  | exchange => cases hn
  | link prev =>
    obtain rfl : .node n = prev := mem_singleton.mp hn
    exact h.inside n (h.wf.linking t x _ ht).1.mem_left

omit [DecidableEq π] in
theorem Inv.queue_of_popTouches {pc : PopPc ν} (h : Inv s evs rest)
    (hc : s.consumer = .popFront canSpin pc) (hn : .node n ∈ popTouches pc) : s.queue (.node n) = true := by
  have hknows := h.knows
  rw [hc] at hknows
  have hhead : .node n = s.head → s.queue (.node n) = true := fun e => h.inside n (e ▸ mem_cons_self)
  cases pc with
  | loadNext head => exact hhead ((mem_singleton.mp hn).trans hknows)
  | waitStub head tries | reloadNext head => exact hhead ((mem_singleton.mp hn).trans hknows.1)
  | waitNext head tries => exact hhead ((mem_singleton.mp hn).trans hknows.1)
  | pushStub head pc => exact h.queue_of_pushTouches (t := none) (congrArg Consumer.push hc) hn
  | changeOwner x =>
    obtain rfl : .node n = x := mem_singleton.mp hn
    exact (h.holding n (by rw [hc]; exact mem_singleton_self n)).1
  | loadHead => cases hn
  | checkTail head => cases hn
  | dropStub b => cases hn
  | checkLast head => cases hn
  | moveHead head b => cases hn

theorem Inv.untouched (h : Inv s evs rest) (hn : s.queue (.node n) = false) (a : Action ν π)
    (ha : ∀ p, a ≠ .push p n) : Untouched s a n := by
  intro next queue
  have hout : ∀ {l : List (Ptr ν)}, (.node n ∈ l → s.queue (.node n) = true) → .node n ∉ l := fun hl hmem => by
    have := hl hmem
    rw [hn] at this
    cases this
  cases a with
  | push p m =>
    have hne : Ptr.node n ≠ .node m := node_ne fun e => ha p (e ▸ rfl)
    have hqueue : (s.setNode n next queue).queue (.node m) = s.queue (.node m) := update_of_ne hne.symm ..
    have hsame : (s.setNode n next queue).producers p = s.producers p := rfl
    simp only [State.step, hsame]
    cases s.producers p with
    | idle =>
      simp only [State.changeOwner, hqueue]
      split
      · simp only [ok_bind, State.setNode, Except.map, update_comm hne.symm]
      · rfl
    | pushNode m pc => rfl
  | produce p =>
    have hsame : (s.setNode n next queue).producers p = s.producers p := rfl
    simp only [State.step, hsame]
    cases hp : s.producers p with
    | idle => rfl
    | pushNode m pc =>
      have ht : s.push (some p) = some (.node m, pc) := congrArg Producer.push hp
      have hpush := pushNode_setNode s next queue (hout (h.queue_of_pushTouches ht))
      simp only [State.pushBack, hpush]
      rfl
  | pop canSpin =>
    have hsame : (s.setNode n next queue).consumer = s.consumer := rfl
    simp only [State.step, hsame]
    cases s.consumer <;> rfl
  | consume =>
    have hsame : (s.setNode n next queue).consumer = s.consumer := rfl
    simp only [State.step, hsame]
    cases hc : s.consumer with
    | idle => rfl
    | popFront canSpin pc => exact popFront_setNode (hout (h.queue_of_popTouches hc))

end

/-! ## Popping without pushes -/

def State.consume (s : State ν π) (canSpin : Bool) : Except Fault (State ν π × List (Event ν π)) :=
  match s.consumer with
  | .idle => s.step (.pop canSpin)
  | .popFront _ _ => s.step .consume

def State.consumeAll (s : State ν π) : List Bool → Except Fault (State ν π × List (Event ν π))
  | [] => .ok (s, [])
  | canSpin :: flags => do
    let (s₁, new₁) ← s.consume canSpin
    let (s₂, new₂) ← s₁.consumeAll flags
    .ok (s₂, new₁ ++ new₂)

def rank : Consumer ν → Nat
  | .idle => 14
  | .popFront _ pc =>
    match pc with
    | .loadHead => 13
    | .loadNext _ => 12
    | .checkTail _ => 11
    | .waitStub _ _ => 10
    | .dropStub _ => 9
    | .reloadNext _ => 8
    | .checkLast _ => 7
    | .pushStub _ .clear => 6
    | .pushStub _ .exchange => 5
    | .pushStub _ (.link _) => 4
    | .waitNext _ _ => 3
    | .moveHead _ _ => 2
    | .changeOwner _ => 1

section
variable {s s' : State ν π} {evs new : List (Event ν π)} {rest : List (Ptr ν)}

omit [DecidableEq π] in
theorem Inv.wait_eq (h : Inv s evs rest) (hidle : ∀ p, s.producers p = .idle) (hpush : s.consumer.push = none)
    (hrest : rest ≠ []) (canSpin : Bool) (tries : Nat) (found : Ptr ν → PopPc ν) (again : Nat → PopPc ν) :
    ∃ b, s.wait canSpin s.head tries found again = s.goTo canSpin (found b) := by
  cases rest with
  | nil => exact absurd rfl hrest
  | cons b rest =>
    have hall : ∀ t, s.push t = none := fun t => by
      cases t with
      | none => exact hpush
      | some p => exact congrArg Producer.push (hidle p)
    have hnext : s.next s.head = some b := h.wf.next_eq hall (.inl ⟨rfl, rfl⟩)
    exact ⟨b, by rw [State.wait, hnext]⟩

section
variable (h : Inv s evs rest) (hidle : ∀ p, s.producers p = .idle)
include h hidle

omit [DecidableEq π] in
theorem Inv.rank_popFront {canSpin : Bool} {pc : PopPc ν}
    (hc : s.consumer = .popFront canSpin pc) (hleft : remaining s rest ≠ [])
    (hs : s.popFront canSpin pc = .ok (s', new)) :
    rank s'.consumer < rank (.popFront canSpin pc) + 14 * (pops new).length := by
  have hknows := h.knows
  rw [hc] at hknows
  have hpush : s.consumer.push = (Consumer.popFront canSpin pc).push := congrArg Consumer.push hc
  have hgo : ∀ {t : State ν π} {pc'}, t.goTo canSpin pc' = .ok (s', new) →
      rank (.popFront canSpin pc') < rank (.popFront canSpin pc) →
      rank s'.consumer < rank (.popFront canSpin pc) + 14 * (pops new).length := by
    rintro t pc' ⟨⟩ hlt
    exact Nat.lt_add_right _ hlt
  cases pc with
  | loadHead => exact hgo hs (show 12 < 13 by decide)
  | loadNext head =>
    simp only [State.popFront] at hs
    split at hs
    · refine hgo hs ?_
      split
      · show 11 < 12
        decide
      · show 7 < 12
        decide
    · refine hgo hs ?_
      split
      · show 9 < 12
        decide
      · show 2 < 12
        decide
  | checkTail head =>
    obtain ⟨rfl, hstub⟩ := hknows
    simp only [State.popFront] at hs
    split at hs
    · next htail =>
      refine absurd ?_ hleft
      rw [remaining, hc, h.wf.rest_eq_nil htail, hstub]
      rfl
    · exact hgo hs (show 10 < 11 by decide)
  | waitStub head tries =>
    obtain ⟨rfl, hstub, hrest⟩ := hknows
    obtain ⟨b, hb⟩ := h.wait_eq hidle hpush hrest canSpin tries .dropStub (.waitStub s.head)
    exact hgo (hb.symm.trans hs) (show 9 < 10 by decide)
  | dropStub b => exact hgo (t := { s with head := b }) hs (show 8 < 9 by decide)
  | reloadNext head =>
    simp only [State.popFront] at hs
    split at hs
    · exact hgo hs (show 7 < 8 by decide)
    · exact hgo hs (show 2 < 8 by decide)
  | checkLast head =>
    refine hgo hs ?_
    split
    · show 6 < 7
      decide
    · show 3 < 7
      decide
  | pushStub head pc =>
    cases pc with
    | clear => cases hs; exact (show 5 < 6 by decide)
    | exchange => cases hs; exact (show 4 < 5 by decide)
    | link prev => cases hs; exact (show 3 < 4 by decide)
  | waitNext head tries =>
    obtain ⟨rfl, hstub, hrest⟩ := hknows
    obtain ⟨b, hb⟩ := h.wait_eq hidle hpush hrest canSpin tries (.moveHead s.head) (.waitNext s.head)
    exact hgo (hb.symm.trans hs) (show 2 < 3 by decide)
  | moveHead head b => exact hgo (t := { s with head := b }) hs (show 1 < 2 by decide)
  | changeOwner x =>
    cases x with
    | stub => exact absurd rfl hknows
    | node n =>
      simp only [State.popFront, State.changeOwner] at hs
      split at hs
      · cases hs
        show 14 < 1 + 14 * 1
        decide
      · cases hs

theorem Inv.consume (canSpin : Bool) :
    ∃ s' new rest', s.consume canSpin = .ok (s', new) ∧ Inv s' (evs ++ new) rest' ∧ (∀ p, s'.producers p = .idle) ∧
      exchanges new = [] ∧
      (remaining s rest ≠ [] → rank s'.consumer < rank s.consumer + 14 * (pops new).length) := by
  unfold State.consume
  cases hc : s.consumer with
  | idle =>
    have hpop := h.goTo (c := .popFront canSpin .loadHead) (congrArg Consumer.push hc).symm
      (congrArg Consumer.holding hc).symm trivial
    refine ⟨{ s with consumer := .popFront canSpin .loadHead }, [], rest, ?_, (append_nil evs).symm ▸ hpop, hidle,
      rfl, fun _ => show 13 < 14 by decide⟩
    simp only [State.step, hc]
    rfl
  | popFront canSpin pc =>
    obtain ⟨s', new, rest', hs, hinv⟩ := h.popFront hc
    obtain ⟨hprod, -, hexch⟩ := popFront_frame hs
    refine ⟨s', new, rest', ?_, hinv, fun p => hprod ▸ hidle p, hexch, fun hleft => h.rank_popFront hidle hc hleft hs⟩
    simp only [State.step, hc, hs]

end
omit [DecidableEq π] in
theorem Inv.remaining_eq {rest' : List (Ptr ν)} (h : Inv s evs rest) (h' : Inv s' (evs ++ new) rest')
    (hnew : exchanges new = []) : remaining s rest = pops new ++ remaining s' rest' := by
  have horder := h'.order
  rw [exchanges_append, hnew, append_nil, h.order, pops_append, append_assoc, append_assoc, append_assoc] at horder
  exact append_cancel_left horder

theorem Inv.consumeAll (h : Inv s evs rest) (hidle : ∀ p, s.producers p = .idle) (flags : List Bool)
    (hflags : remaining s rest ≠ [] → 14 * (remaining s rest).length + rank s.consumer ≤ flags.length) :
    ∃ s' new, s.consumeAll flags = .ok (s', new) ∧ pops new = remaining s rest := by
  induction flags generalizing s evs rest with
  | nil =>
    refine ⟨s, [], rfl, ?_⟩
    by_contra hne
    have hle := hflags fun e => hne e.symm
    have hpos : 0 < (remaining s rest).length := length_pos_iff.mpr fun e => hne e.symm
    rw [length_nil] at hle
    omega
  | cons canSpin flags ih =>
    obtain ⟨s1, new1, rest1, hs1, hinv1, hidle1, hexch1, hrank⟩ := h.consume hidle canSpin
    have hsplit := h.remaining_eq hinv1 hexch1
    have hlen := congrArg List.length hsplit
    rw [length_append] at hlen
    obtain ⟨s2, new2, hs2, hpops2⟩ := ih hinv1 hidle1 fun hleft => by
      have hleft' : remaining s rest ≠ [] := fun e => hleft (append_eq_nil_iff.mp (hsplit.symm.trans e)).2
      have hle := hflags hleft'
      have hlt := hrank hleft'
      rw [length_cons] at hle
      omega
    refine ⟨s2, new1 ++ new2, ?_, ?_⟩
    · simp only [State.consumeAll, hs1, ok_bind, hs2]
    · rw [pops_append, hpops2, hsplit]

end

/-! ## Main result -/

/-- What is relied on after a run with the events `evs`. -/
structure Correct (s : State ν π) (evs : List (Event ν π)) : Prop where
  /-- elements are returned once each, in the order in which the tail was exchanged -/
  fifo : pops evs <+: (exchanges evs).map Prod.snd
  /-- every call exchanges the tail at most once, and the calls of a producer do so in their order -/
  producer_order : ∀ p, ofProducer p (exchanges evs) <+: ofProducer p (calls evs)
  /-- a consumer that goes on popping while no push is in progress gets everything -/
  not_lost : (∀ p, s.producers p = .idle) → ∃ bound, ∀ flags : List Bool, bound ≤ flags.length →
    ∃ s' new, s.consumeAll flags = .ok (s', new) ∧ pops (evs ++ new) = (exchanges evs).map Prod.snd
  /-- a blocking pop that returns `NULL` found the queue empty -/
  null_empty : ∀ s' new, s.step .consume = .ok (s', new) → .null true ∈ new → pops evs = (exchanges evs).map Prod.snd
  /-- an element outside the queue may be pushed or destroyed, and is not touched -/
  untouched : ∀ n, handed evs n = false → s.queue (.node n) = false ∧
    ∀ a, (∀ p, a ≠ .push p n) → Untouched s a n
  /-- only a call for an element in the queue panics -/
  panics : ∀ a e, s.step a = .error e → ∃ p n, a = .push p n ∧ handed evs n = true

/-- The queue is correct after every run. -/
theorem run_correct {s : State ν π} {evs : List (Event ν π)} (h : Run s evs) : Correct s evs := by
  obtain ⟨rest, hinv⟩ := h.inv
  exact {
    fifo := ⟨_, (hinv.order.trans (List.append_assoc ..)).symm⟩
    producer_order := fun p => ⟨_, (calls_eq h p).symm⟩
    not_lost := fun hidle => by
      refine ⟨14 * (remaining s rest).length + rank s.consumer, fun flags hflags => ?_⟩
      obtain ⟨s', new, hs, hpops⟩ := hinv.consumeAll hidle flags fun _ => hflags
      refine ⟨s', new, hs, ?_⟩
      rw [pops_append, hpops, hinv.order, List.append_assoc]
      rfl
    null_empty := fun s' new hs hnull => hinv.remaining_eq_nil.mp (hinv.null_empty hs hnull)
    untouched := fun n hn => by
      have hqueue : s.queue (.node n) = false := (hinv.queue n).trans hn
      exact ⟨hqueue, fun a ha => hinv.untouched hqueue a ha⟩
    panics := fun a e he => by
      rcases hinv.step a with ⟨s', new, rest', hs, -⟩ | ⟨-, hpush⟩
      · rw [he] at hs
        cases hs
      · exact hpush }

/-- One element is pushed and popped. -/
theorem run_correct_once : ∃ s : State Bool Bool,
    Run s [.called false true, .exchanged false true, .popped true] ∧
      Correct s [.called false true, .exchanged false true, .popped true] := by
  have pushed : Run (ν := Bool) (π := Bool) _ [.called false true, .exchanged false true] :=
    .step (.produce false) (.step (.produce false) (.step (.produce false) (.step (.push false true) .start rfl)
      rfl) rfl) rfl
  have stubLeft := Run.step .consume (.step .consume (.step .consume (.step .consume (.step (.pop true) pushed
    rfl) rfl) rfl) rfl) rfl
  have stubPushed := Run.step .consume (.step .consume (.step .consume (.step .consume stubLeft rfl) rfl) rfl) rfl
  have popped := Run.step .consume (.step .consume (.step .consume stubPushed rfl) rfl) rfl
  exact ⟨_, popped, run_correct popped⟩

end Roc.Core.MpscQueue
