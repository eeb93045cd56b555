import RocToolkit.Core.MpscQueue

/-!
# RocToolkit.Core.MpscInvariant

What holds after every step of the queue. The nodes from `head_` to `tail_` are a list with some links missing
(`LinkedQueue.WF`); the pushes in progress are those of the producers and the one of the stub, which the consumer
makes. The elements exchanged for the tail are those returned, the one that is about to be returned, and those in the
list, in this order.
-/

open Function (update update_eq_self update_of_ne update_self)

namespace Roc.Core.MpscQueue

open List

open LinkedQueue (PushPc WF)

open Consumer

variable {ν π : Type}

def Producer.push : Producer ν → Option (Ptr ν × PushPc (Ptr ν))
  | .idle => none
  | .pushNode n pc => some (.node n, pc)

def Consumer.push : Consumer ν → Option (Ptr ν × PushPc (Ptr ν))
  | .popFront _ (.pushStub _ pc) => some (.stub, pc)
  | _ => none

/-- The element that `pop_node_` has taken and `pop_front` has not returned yet. -/
def Consumer.holding : Consumer ν → List ν
  | .popFront _ (.changeOwner (.node n)) => [n]
  | _ => []

def State.push (s : State ν π) : Option π → Option (Ptr ν × PushPc (Ptr ν))
  | none => s.consumer.push
  | some p => (s.producers p).push

def Ptr.node? : Ptr ν → Option ν
  | .stub => none
  | .node n => some n

def nodes (l : List (Ptr ν)) : List ν := l.filterMap Ptr.node?

/-- What the consumer knows at its place: `next` is the link of the head, `rest` the nodes after it. -/
def Knows (head : Ptr ν) (next : Option (Ptr ν)) (rest : List (Ptr ν)) : Consumer ν → Prop
  | .idle => True
  | .popFront _ pc =>
    match pc with
    | .loadHead => True
    | .loadNext h => h = head
    | .checkTail h => h = head ∧ head = .stub
    | .waitStub h _ => h = head ∧ head = .stub ∧ rest ≠ []
    | .dropStub b => head = .stub ∧ next = some b
    | .reloadNext h => h = head ∧ head ≠ .stub
    | .checkLast h => h = head ∧ head ≠ .stub
    | .pushStub h _ => h = head ∧ head ≠ .stub
    | .waitNext h _ => h = head ∧ head ≠ .stub ∧ rest ≠ []
    | .moveHead h b => h = head ∧ head ≠ .stub ∧ next = some b
    | .changeOwner h => h ≠ .stub

theorem Knows.mono {head : Ptr ν} {next next' : Option (Ptr ν)} {rest rest' : List (Ptr ν)} {c : Consumer ν}
    (h : Knows head next rest c) (hnext : ∀ b, next = some b → next' = some b) (hrest : rest ≠ [] → rest' ≠ []) :
    Knows head next' rest' c := by
  rcases c with _ | ⟨canSpin, pc⟩
  · exact h
  · cases pc with
    | waitStub x tries | waitNext x tries => exact ⟨h.1, h.2.1, hrest h.2.2⟩
    | dropStub b => exact ⟨h.1, hnext b h.2⟩
    | moveHead x b => exact ⟨h.1, h.2.1, hnext b h.2.2⟩
    | _ => exact h

def added (x : Ptr ν) : PushPc (Ptr ν) → List (Ptr ν)
  | .exchange => [x]
  | .clear => []
  | .link _ => []

theorem nodes_append (l l' : List (Ptr ν)) : nodes (l ++ l') = nodes l ++ nodes l' := filterMap_append

theorem mem_added {x : Ptr ν} {pc : PushPc (Ptr ν)} {n : ν} (h : .node n ∈ added x pc) :
    x = .node n ∧ pc = .exchange := by
  cases pc with
  | exchange => exact ⟨(mem_singleton.mp h).symm, rfl⟩
  | clear => cases h
  | link prev => cases h

variable [DecidableEq ν]

/-- The nodes of the queue are `s.head :: rest`. -/
structure Inv (s : State ν π) (evs : List (Event ν π)) (rest : List (Ptr ν)) : Prop where
  wf : WF s.next s.head s.tail s.push rest
  order : (exchanges evs).map Prod.snd = pops evs ++ s.consumer.holding ++ nodes (s.head :: rest)
  queue : ∀ n, s.queue (.node n) = handed evs n
  stub : s.queue .stub = false
  inside : ∀ n, .node n ∈ s.head :: rest → s.queue (.node n) = true
  pushing : ∀ p n pc, s.producers p = .pushNode n pc → s.queue (.node n) = true
  holding : ∀ n ∈ s.consumer.holding, s.queue (.node n) = true ∧ .node n ∉ s.head :: rest ∧
    ∀ p pc, s.producers p ≠ .pushNode n pc
  knows : Knows s.head (s.next s.head) rest s.consumer

theorem inv_start : Inv ({} : State ν π) [] [] where
  wf := {
    nodup := nodup_singleton _
    last := rfl
    next_tail := rfl
    linked := fun _ _ h => h.elim
    outside := fun t _ _ h => by cases t <;> cases h
    cleared := fun t _ h => by cases t <;> cases h
    linking := fun t _ _ h => by cases t <;> cases h
    distinct := fun t _ _ _ _ h => by cases t <;> cases h }
  order := rfl
  queue _ := rfl
  stub := rfl
  inside n h := by cases mem_singleton.mp h
  pushing p n pc h := by cases h
  holding n h := by cases h
  knows := trivial

section
variable [DecidableEq π]

omit [DecidableEq ν] in
theorem push_consumer (s : State ν π) (c : Consumer ν) : { s with consumer := c }.push = update s.push none c.push := by
  funext t
  cases t with
  | none => exact (update_self none c.push s.push).symm
  | some p => exact (update_of_ne (Option.some_ne_none p) c.push s.push).symm

omit [DecidableEq ν] in
theorem push_producers (s : State ν π) (p : π) (x : Producer ν) :
    { s with producers := update s.producers p x }.push = update s.push (some p) x.push := by
  funext t
  cases t with
  | none => exact (update_of_ne (Option.some_ne_none p).symm _ s.push).symm
  | some q =>
    by_cases hq : q = p
    · subst hq
      rw [update_self]
      exact congrArg Producer.push (update_self ..)
    · rw [update_of_ne (fun e => hq (Option.some.inj e))]
      exact congrArg Producer.push (update_of_ne hq _ _)

omit [DecidableEq ν] in
theorem push_consumer_eq {s : State ν π} {c : Consumer ν} (h : c.push = s.consumer.push) :
    { s with consumer := c }.push = s.push := by
  rw [push_consumer, h]
  exact update_eq_self none s.push

end

/-! ## Steps of the consumer -/

section
variable [DecidableEq π] {s : State ν π} {evs : List (Event ν π)} {rest : List (Ptr ν)} {c : Consumer ν}

theorem Inv.goTo (h : Inv s evs rest) (hpush : c.push = s.consumer.push)
    (hhold : c.holding = s.consumer.holding) (hknows : Knows s.head (s.next s.head) rest c) :
    Inv { s with consumer := c } evs rest where
  wf := by
    rw [push_consumer_eq hpush]
    exact h.wf
  order := hhold ▸ h.order
  queue := h.queue
  stub := h.stub
  inside := h.inside
  pushing := h.pushing
  holding n hn := h.holding n (hhold ▸ hn)
  knows := hknows

omit [DecidableEq π] in
theorem Inv.null (h : Inv s evs rest) (canSpin : Bool) : Inv s (evs ++ [.null canSpin]) rest where
  wf := h.wf
  order := by
    rw [exchanges_concat, pops_concat]
    simpa [Event.exchange?, Event.popped?] using h.order
  queue n := by rw [handed_null, h.queue]
  stub := h.stub
  inside := h.inside
  pushing := h.pushing
  holding := h.holding
  knows := h.knows

section
variable (h : Inv s evs rest) (hidle : s.consumer.push = none) (hhold : s.consumer.holding = [])
include h hidle hhold

theorem Inv.dropStub {b : Ptr ν} (hhead : s.head = .stub) (hnext : s.next s.head = some b) (canSpin : Bool) :
    ∃ rest', rest = b :: rest' ∧
      Inv { s with head := b, consumer := .popFront canSpin (.reloadNext b) } evs rest' := by
  obtain ⟨rest', rfl⟩ := h.wf.rest_eq_cons hnext
  refine ⟨rest', rfl, ?_⟩
  have hb : b ≠ .stub := fun e => (nodup_cons.mp h.wf.nodup).1 (by rw [hhead, e]; exact mem_cons_self)
  exact {
    wf := by
      rw [push_consumer_eq (s := { s with head := b }) (c := .popFront canSpin (.reloadNext b)) hidle.symm]
      exact h.wf.advance hnext
    order := by
      have := h.order
      rw [hhold, hhead] at this
      exact this
    queue := h.queue
    stub := h.stub
    inside := fun n hn => h.inside n (mem_cons_of_mem _ hn)
    pushing := h.pushing
    holding := fun n hn => by cases hn
    knows := ⟨rfl, hb⟩ }

theorem Inv.moveHead {n : ν} {b : Ptr ν} (hhead : s.head = .node n) (hnext : s.next s.head = some b) (canSpin : Bool) :
    ∃ rest', rest = b :: rest' ∧
      Inv { s with head := b, consumer := .popFront canSpin (.changeOwner (.node n)) } evs rest' := by
  obtain ⟨rest', rfl⟩ := h.wf.rest_eq_cons hnext
  have hnot : Ptr.node n ∉ b :: rest' := hhead ▸ (nodup_cons.mp h.wf.nodup).1
  refine ⟨rest', rfl, ?_⟩
  exact {
    wf := by
      rw [push_consumer_eq (s := { s with head := b }) (c := .popFront canSpin (.changeOwner (.node n))) hidle.symm]
      exact h.wf.advance hnext
    order := by
      have := h.order
      rw [hhold, hhead, append_nil] at this
      rw [this, append_assoc]
      rfl
    queue := h.queue
    stub := h.stub
    inside := fun m hm => h.inside m (mem_cons_of_mem _ hm)
    pushing := h.pushing
    holding := fun m hm => by
      obtain rfl : m = n := mem_singleton.mp hm
      refine ⟨h.inside m (hhead ▸ mem_cons_self), hnot, fun p pc hp => ?_⟩
      -- a producer of the head would still have to exchange or to link it
      have hpush : s.push (some p) = some (.node m, pc) := congrArg Producer.push hp
      cases pc with
      | clear => exact h.wf.outside _ _ _ hpush (.inl rfl) (hhead ▸ mem_cons_self)
      | exchange => exact h.wf.outside _ _ _ hpush (.inr rfl) (hhead ▸ mem_cons_self)
      | link prev => exact hnot ((h.wf.linking _ _ _ hpush).1.mem_tail)
    knows := fun e => by cases e }

end

/-! ## Pushes -/

variable {x : Ptr ν} {pc : PushPc (Ptr ν)}

variable {push : Option π → Option (Ptr ν × PushPc (Ptr ν))} {t : Option π} {n : ν}
  {pc' : PushPc (Ptr ν)}

theorem wf_pushNode (h : WF s.next s.head s.tail push rest) (ht : push t = some (x, pc)) :
    WF (s.pushNode x pc).next s.head (s.pushNode x pc).tail
      (update push t ((s.pushNode x pc).pc.map fun pc => (x, pc))) (rest ++ added x pc) := by
  cases pc with
  | clear =>
    rw [added, append_nil]
    exact h.clear ht
  | exchange => exact h.exchange ht
  | link prev =>
    rw [added, append_nil]
    exact h.link ht

omit [DecidableEq π] in
theorem next_pushNode (h : WF s.next s.head s.tail push rest) (ht : push t = some (x, pc)) {b : Ptr ν}
    (hb : s.next s.head = some b) : (s.pushNode x pc).next s.head = some b := by
  cases pc with
  | clear =>
    have hne : s.head ≠ x := fun e => h.outside t x _ ht (.inl rfl) (e ▸ mem_cons_self)
    exact (update_of_ne hne _ _).trans hb
  | exchange => exact hb
  | link prev =>
    have hne : s.head ≠ prev := fun e => by
      have hnone := (h.linking t x prev ht).2
      rw [← e, hb] at hnone
      cases hnone
    exact (update_of_ne hne _ _).trans hb

theorem Inv.pushStub (h : Inv s evs rest) (ht : s.push none = some (.stub, pc))
    (hhold : s.consumer.holding = []) (hpush : c.push = (s.pushNode .stub pc).pc.map fun pc => (.stub, pc))
    (hhold' : c.holding = []) (hknows : Knows s.head ((s.pushNode .stub pc).next s.head) (rest ++ added .stub pc) c) :
    Inv { s with next := (s.pushNode .stub pc).next, tail := (s.pushNode .stub pc).tail, consumer := c } evs
      (rest ++ added .stub pc) where
  wf := by
    rw [push_consumer { s with next := (s.pushNode .stub pc).next, tail := (s.pushNode .stub pc).tail } c, hpush]
    exact wf_pushNode h.wf ht
  order := by
    have hnodes : nodes (added (.stub : Ptr ν) pc) = [] := by cases pc <;> rfl
    rw [h.order, hhold, hhold', ← cons_append, nodes_append, hnodes, append_nil, append_nil]
  queue := h.queue
  stub := h.stub
  inside n hn := by
    rw [← cons_append, mem_append] at hn
    exact h.inside n (hn.resolve_right fun hn => by cases (mem_added hn).1)
  pushing := h.pushing
  holding n hn := by
    rw [hhold'] at hn
    cases hn
  knows := hknows

theorem push_pushBack (s : State ν π) (p : π) (n : ν) (pc : PushPc (Ptr ν)) : (s.pushBack p n pc).1.push =
      update s.push (some p) ((s.pushNode (.node n) pc).pc.map fun pc => (.node n, pc)) := by
  cases pc <;> exact push_producers { s with next := _, tail := _ } p _

variable {p : π} {m : ν}

/-- A producer that pushes after an operation of `p` pushed before, or is `p`. -/
theorem pushNode_of_pushBack {q : π} (h : (s.pushBack p n pc).1.producers q = .pushNode m pc') :
    m = n ∨ ∃ pc', s.producers q = .pushNode m pc' := by
  by_cases hq : q = p
  · subst hq
    simp only [State.pushBack, update_self] at h
    split at h <;> cases h
    exact .inl rfl
  · have hother : (s.pushBack p n pc).1.producers q = s.producers q := update_of_ne hq ..
    exact .inr ⟨pc', hother ▸ h⟩

theorem Inv.pushBack (h : Inv s evs rest) (hp : s.producers p = .pushNode n pc) :
    Inv (s.pushBack p n pc).1 (evs ++ (s.pushBack p n pc).2) (rest ++ added (.node n) pc) := by
  have ht : s.push (some p) = some (.node n, pc) := congrArg Producer.push hp
  have hown : s.queue (.node n) = true := h.pushing p n pc hp
  have hevs : (exchanges (evs ++ (s.pushBack p n pc).2)).map Prod.snd =
      (exchanges evs).map Prod.snd ++ nodes (added (.node n) pc) ∧
      pops (evs ++ (s.pushBack p n pc).2) = pops evs ∧ ∀ m, handed (evs ++ (s.pushBack p n pc).2) m = handed evs m := by
    cases pc with
    | exchange =>
      refine ⟨?_, (pops_concat evs _).trans (append_nil _), fun m => handed_exchanged evs p n m⟩
      show (exchanges (evs ++ [.exchanged p n])).map Prod.snd = _
      rw [exchanges_concat, map_append]
      rfl
    | clear | link prev => simp [State.pushBack, added, nodes]
  obtain ⟨hexch, hpops, hhanded⟩ := hevs
  exact {
    wf := by
      rw [push_pushBack]
      exact wf_pushNode h.wf ht
    order := by
      rw [hexch, hpops, h.order, append_assoc, ← nodes_append]
      rfl
    queue := fun m => (h.queue m).trans (hhanded m).symm
    stub := h.stub
    inside := fun m hm => by
      rcases mem_append.mp (cons_append ▸ hm) with hm | hm
      · exact h.inside m hm
      · cases (mem_added hm).1
        exact hown
    pushing := fun q m pc' hq => by
      rcases pushNode_of_pushBack hq with rfl | ⟨pc', hq⟩
      · exact hown
      · exact h.pushing q m pc' hq
    holding := fun m hm => by
      obtain ⟨hqueue, hnot, hfree⟩ := h.holding m hm
      have hne : m ≠ n := fun e => hfree p pc (e ▸ hp)
      refine ⟨hqueue, fun hmem => ?_, fun q pc' hq => ?_⟩
      · rcases mem_append.mp (cons_append ▸ hmem) with hmem | hmem
        · exact hnot hmem
        · cases (mem_added hmem).1
          exact hne rfl
      · rcases pushNode_of_pushBack hq with e | ⟨pc', hq⟩
        · exact hne e
        · exact hfree q pc' hq
    knows := h.knows.mono (fun b hb => next_pushNode h.wf ht hb) (fun hne e => hne (append_eq_nil_iff.mp e).1) }

/-! ## Calls and returns -/

omit [DecidableEq ν] in
theorem node_ne (h : m ≠ n) : Ptr.node m ≠ .node n := fun e => h (Ptr.node.inj e)

omit [DecidableEq ν] [DecidableEq π] in
theorem producers_of_push (h : s.push t = some (.node n, pc)) : ∃ p, s.producers p = .pushNode n pc := by
  cases t with
  | none =>
    simp only [State.push, push] at h
    split at h <;> cases h
  | some p =>
    simp only [State.push, Producer.push] at h
    split at h <;> cases h
    exact ⟨p, by assumption⟩

omit [DecidableEq ν] in
theorem producers_update {q : π} (h : update s.producers p (.pushNode n pc) q = .pushNode m pc') :
    m = n ∨ s.producers q = .pushNode m pc' := by
  by_cases e : q = p
  · subst e
    rw [update_self] at h
    cases h
    exact .inl rfl
  · rw [update_of_ne e] at h
    exact .inr h

theorem Inv.call (h : Inv s evs rest) (hp : s.producers p = .idle) (hn : s.queue (.node n) = false) :
    Inv { s with queue := update s.queue (.node n) true,
                 producers := update s.producers p (.pushNode n .clear) } (evs ++ [.called p n]) rest := by
  have hfree : ∀ q pc, s.producers q ≠ .pushNode n pc := fun q pc hq => by
    have := h.pushing q n pc hq
    rw [hn] at this
    cases this
  have hnot : .node n ∉ s.head :: rest := fun hmem => by
    have := h.inside n hmem
    rw [hn] at this
    cases this
  have hkeep : ∀ {m}, s.queue (.node m) = true → update s.queue (.node n) true (.node m) = true := fun {m} hm => by
    by_cases e : m = n
    · rw [e, update_self]
    · rw [update_of_ne (node_ne e), hm]
  exact {
    wf := by
      rw [push_producers { s with queue := update s.queue (.node n) true } p (.pushNode n .clear)]
      refine h.wf.begin_push (congrArg Producer.push hp) hnot fun t pc ht => ?_
      obtain ⟨q, hq⟩ := producers_of_push ht
      exact hfree q pc hq
    order := by
      rw [exchanges_concat, pops_concat]
      simpa [Event.exchange?, Event.popped?] using h.order
    queue := fun m => by
      rw [handed_called, ← h.queue m]
      by_cases e : m = n
      · simp [e]
      · simp [e]
    stub := (update_of_ne (fun e : Ptr.stub = .node n => by cases e) true s.queue).trans h.stub
    inside := fun m hm => hkeep (h.inside m hm)
    pushing := fun q m pc hq => by
      rcases producers_update hq with rfl | hq
      · exact update_self ..
      · exact hkeep (h.pushing q m pc hq)
    holding := fun m hm => by
      obtain ⟨hqueue, hnot', hfree'⟩ := h.holding m hm
      have hne : m ≠ n := fun e => by rw [e, hn] at hqueue; cases hqueue
      refine ⟨hkeep hqueue, hnot', fun q pc hq => ?_⟩
      rcases producers_update hq with e | hq
      · exact hne e
      · exact hfree' q pc hq
    knows := h.knows }

theorem Inv.release {canSpin : Bool} (h : Inv s evs rest)
    (hc : s.consumer = .popFront canSpin (.changeOwner (.node n))) :
    Inv { s with queue := update s.queue (.node n) false, consumer := .idle } (evs ++ [.popped n]) rest := by
  obtain ⟨-, hnot, hfree⟩ := h.holding n (by rw [hc]; exact mem_singleton_self n)
  have hkeep : ∀ {m}, m ≠ n → s.queue (.node m) = true → update s.queue (.node n) false (.node m) = true :=
    fun e hm => (update_of_ne (node_ne e) _ _).trans hm
  exact {
    wf := by
      rw [push_consumer_eq (s := { s with queue := update s.queue (.node n) false }) (c := .idle) (by rw [hc]; rfl)]
      exact h.wf
    order := by
      have := h.order
      rw [hc] at this
      rw [exchanges_concat, pops_concat]
      simpa [Event.exchange?, Event.popped?, Consumer.holding] using this
    queue := fun m => by
      rw [handed_popped, ← h.queue m]
      by_cases e : m = n
      · simp [e]
      · simp [e]
    stub := (update_of_ne (fun e : Ptr.stub = .node n => by cases e) false s.queue).trans h.stub
    inside := fun m hm => hkeep (fun e => hnot (e ▸ hm)) (h.inside m hm)
    pushing := fun q m pc hq => hkeep (fun e => hfree q pc (e ▸ hq)) (h.pushing q m pc hq)
    holding := fun m hm => by cases hm
    knows := trivial }

/-! ## Every step -/

/-- The outcome of an operation: it does not panic and keeps the invariant. -/
def Kept (evs : List (Event ν π)) (r : Except Fault (State ν π × List (Event ν π))) : Prop :=
  ∃ s' new rest', r = .ok (s', new) ∧ Inv s' (evs ++ new) rest'

section
variable (h : Inv s evs rest)
include h

variable {canSpin : Bool} {pc : PopPc ν}

theorem Inv.kept_goTo (hpush : (popFront canSpin pc).push = s.consumer.push)
    (hhold : (popFront canSpin pc).holding = s.consumer.holding)
    (hknows : Knows s.head (s.next s.head) rest (.popFront canSpin pc)) : Kept evs (s.goTo canSpin pc) :=
  ⟨_, [], rest, rfl, (append_nil evs).symm ▸ h.goTo hpush hhold hknows⟩

section
variable (hpush : s.consumer.push = none) (hhold : s.consumer.holding = [])
include hpush hhold

variable {canSpin : Bool}

theorem Inv.kept_null : Kept evs (s.returnNull canSpin) :=
  ⟨_, _, rest, rfl, (h.goTo (c := .idle) hpush.symm hhold.symm trivial).null canSpin⟩

theorem Inv.kept_wait {tries : Nat} {found : Ptr ν → PopPc ν} {again : Nat → PopPc ν}
    (hfound : ∀ b, (popFront canSpin (found b)).push = none ∧ (popFront canSpin (found b)).holding = [] ∧
      (s.next s.head = some b → Knows s.head (s.next s.head) rest (.popFront canSpin (found b))))
    (hagain : ∀ k, (popFront canSpin (again k)).push = none ∧ (popFront canSpin (again k)).holding = [] ∧
      Knows s.head (s.next s.head) rest (.popFront canSpin (again k))) :
    Kept evs (s.wait canSpin s.head tries found again) := by
  unfold State.wait
  split
  · next b hb =>
    obtain ⟨hp, hh, hk⟩ := hfound b
    exact h.kept_goTo (hp.trans hpush.symm) (hh.trans hhold.symm) (hk hb)
  · split
    · exact h.kept_null hpush hhold
    · obtain ⟨hp, hh, hk⟩ := hagain (tries + 1)
      exact h.kept_goTo (hp.trans hpush.symm) (hh.trans hhold.symm) hk

theorem Inv.beginStub (hne : s.head ≠ .stub) (htail : s.tail = s.head) :
    Inv { s with consumer := .popFront canSpin (.pushStub s.head .clear) } evs rest where
  wf := by
    rw [push_consumer]
    refine h.wf.begin_push hpush ?_ fun t pc ht => ?_
    · rw [h.wf.rest_eq_nil htail, mem_singleton]
      exact hne.symm
    · cases t with
      | none =>
        rw [State.push, hpush] at ht
        cases ht
      | some p =>
        simp only [State.push, Producer.push] at ht
        split at ht <;> cases ht
  order := by
    rw [h.order, hhold]
    rfl
  queue := h.queue
  stub := h.stub
  inside := h.inside
  pushing := h.pushing
  holding n hn := by cases hn
  knows := ⟨rfl, hne⟩

end

theorem Inv.popFront (hc : s.consumer = .popFront canSpin pc) : Kept evs (s.popFront canSpin pc) := by
  have hknows := h.knows
  rw [hc] at hknows
  have hpush : s.consumer.push = (Consumer.popFront canSpin pc).push := congrArg Consumer.push hc
  have hhold : s.consumer.holding = (Consumer.popFront canSpin pc).holding := congrArg Consumer.holding hc
  cases pc with
  | loadHead => exact h.kept_goTo hpush.symm hhold.symm rfl
  | loadNext head =>
    obtain rfl : head = s.head := hknows
    simp only [State.popFront]
    by_cases hstub : s.head = .stub
    · split
      · rw [if_pos hstub]
        exact h.kept_goTo hpush.symm hhold.symm ⟨rfl, hstub⟩
      · next b hb =>
        rw [if_pos hstub]
        exact h.kept_goTo hpush.symm hhold.symm ⟨hstub, hb⟩
    · split
      · rw [if_neg hstub]
        exact h.kept_goTo hpush.symm hhold.symm ⟨rfl, hstub⟩
      · next b hb =>
        rw [if_neg hstub]
        exact h.kept_goTo hpush.symm hhold.symm ⟨rfl, hstub, hb⟩
  | checkTail head =>
    obtain ⟨rfl, hstub⟩ := hknows
    simp only [State.popFront]
    split
    · exact h.kept_null hpush hhold
    · next htail =>
      refine h.kept_goTo hpush.symm hhold.symm ⟨rfl, hstub, fun e => htail ?_⟩
      have hlast := h.wf.last
      rw [e] at hlast
      exact (Option.some.inj hlast).symm
  | waitStub head tries =>
    obtain ⟨rfl, hstub, hrest⟩ := hknows
    exact h.kept_wait hpush hhold (fun b => ⟨rfl, rfl, fun hb => ⟨hstub, hb⟩⟩) fun k => ⟨rfl, rfl, rfl, hstub, hrest⟩
  | dropStub b =>
    obtain ⟨hstub, hb⟩ := hknows
    obtain ⟨rest', -, hinv⟩ := h.dropStub hpush hhold hstub hb canSpin
    exact ⟨_, [], rest', rfl, (append_nil evs).symm ▸ hinv⟩
  | reloadNext head =>
    obtain ⟨rfl, hstub⟩ := hknows
    simp only [State.popFront]
    split
    · exact h.kept_goTo hpush.symm hhold.symm ⟨rfl, hstub⟩
    · next b hb => exact h.kept_goTo hpush.symm hhold.symm ⟨rfl, hstub, hb⟩
  | checkLast head =>
    obtain ⟨rfl, hstub⟩ := hknows
    simp only [State.popFront]
    split
    · next htail => exact ⟨_, [], rest, rfl, (append_nil evs).symm ▸ h.beginStub hpush hhold hstub htail⟩
    · next htail =>
      refine h.kept_goTo hpush.symm hhold.symm ⟨rfl, hstub, fun e => htail ?_⟩
      have hlast := h.wf.last
      rw [e] at hlast
      exact (Option.some.inj hlast).symm
  | pushStub head pc =>
    obtain ⟨rfl, hstub⟩ := hknows
    refine ⟨_, [], _, rfl, (append_nil evs).symm ▸ h.pushStub hpush hhold ?_ ?_ ?_⟩
    · cases pc <;> rfl
    · cases pc <;> rfl
    · cases pc with
      | clear => exact ⟨rfl, hstub⟩
      | exchange => exact ⟨rfl, hstub⟩
      | link prev =>
        have hmem := (h.wf.linking none .stub prev hpush).1.mem_tail
        exact ⟨rfl, hstub, fun e => ne_nil_of_mem hmem (append_eq_nil_iff.mp e).1⟩
  | waitNext head tries =>
    obtain ⟨rfl, hstub, hrest⟩ := hknows
    exact h.kept_wait hpush hhold (fun b => ⟨rfl, rfl, fun hb => ⟨rfl, hstub, hb⟩⟩) fun k => ⟨rfl, rfl, rfl, hstub, hrest⟩
  | moveHead head b =>
    obtain ⟨rfl, hstub, hb⟩ := hknows
    cases hhead : s.head with
    | stub => exact absurd hhead hstub
    | node n =>
      obtain ⟨rest', -, hinv⟩ := h.moveHead hpush hhold hhead hb canSpin
      exact ⟨_, [], rest', rfl, (append_nil evs).symm ▸ hinv⟩
  | changeOwner x =>
    cases x with
    | stub => exact absurd rfl hknows
    | node n =>
      obtain ⟨hqueue, -, -⟩ := h.holding n (by rw [hhold]; exact mem_singleton_self n)
      refine ⟨_, _, rest, ?_, h.release hc⟩
      rw [State.popFront, State.changeOwner, if_pos hqueue]
      rfl

theorem Inv.step (a : Action ν π) :
    Kept evs (s.step a) ∨ ((∃ e, s.step a = .error e) ∧ ∃ p n, a = .push p n ∧ handed evs n = true) := by
  cases a with
  | push p n =>
    simp only [State.step]
    split
    · next hp =>
      unfold State.changeOwner
      cases hn : s.queue (.node n) with
      | true => exact .inr ⟨⟨_, rfl⟩, p, n, rfl, (h.queue n).symm.trans hn⟩
      | false => exact .inl ⟨_, _, rest, rfl, h.call hp hn⟩
    · exact .inl ⟨s, [], rest, rfl, (append_nil evs).symm ▸ h⟩
  | produce p =>
    simp only [State.step]
    split
    · exact .inl ⟨s, [], rest, rfl, (append_nil evs).symm ▸ h⟩
    · next n pc hp => exact .inl ⟨_, _, _, rfl, h.pushBack hp⟩
  | pop canSpin =>
    simp only [State.step]
    split
    · next hc =>
      exact .inl (h.kept_goTo (congrArg Consumer.push hc).symm (congrArg Consumer.holding hc).symm trivial)
    · exact .inl ⟨s, [], rest, rfl, (append_nil evs).symm ▸ h⟩
  | consume =>
    simp only [State.step]
    split
    · exact .inl ⟨s, [], rest, rfl, (append_nil evs).symm ▸ h⟩
    · next canSpin pc hc => exact .inl (h.popFront hc)

end

theorem Run.inv (h : Run s evs) : ∃ rest, Inv s evs rest := by
  induction h with
  | start => exact ⟨[], inv_start⟩
  | step a _ hs ih =>
    obtain ⟨rest, hinv⟩ := ih
    rcases hinv.step a with ⟨s', new, rest', hs', hinv'⟩ | ⟨⟨e, he⟩, -⟩
    · rw [hs, Except.ok.injEq, Prod.mk.injEq] at hs'
      obtain ⟨rfl, rfl⟩ := hs'
      exact ⟨rest', hinv'⟩
    · rw [hs] at he
      cases he

end

end Roc.Core.MpscQueue
