import RocToolkit.Node.SlotSafety

/-!
# RocToolkit.Node.SlotCalls

The calls of a user of a receiver or sender node. Every state that calls lead to is `Safe`, whatever the
tasks return. From a safe state a call panics if and only if it is a `get_metrics` that asks for the
metrics of a broken slot; every other call says `false` only where the slot is broken, and leaves a broken
slot alone.
-/

namespace Roc.Node

open PipelineLoop Dict

open Roc.Core (NodeMap Hashmap hashsumInt64)

section Calls

variable {node : State} {index : Nat} {slot : Slot}

theorem getSlot_found (h : node.slots.get index = some slot) (autoCreate : Bool)
    (luck : SlotLuck) : getSlot node index autoCreate luck = (some slot, node) := by
  simp [getSlot, h]

theorem getSlot_absent (h : node.slots.get index = none) (luck : SlotLuck) :
    getSlot node index false luck = (none, node) := by
  simp [getSlot, h]

theorem Fit.mono {loops : Loops} {pipeline : PipelineLoop} (h : Fit loops slot)
    (hslots : ∀ k s, loops.pipeline.slots.get k = some s → pipeline.slots.get k = some s) :
    Fit { loops with pipeline } slot := by
  refine ⟨⟨?_, h.backed.ports, h.backed.apart, h.backed.fresh⟩, h.broken, h.handle⟩
  intro k hk
  obtain ⟨s, hs⟩ := h.backed.handle k hk
  exact ⟨s, hslots k s hs⟩

theorem get_createSlot (p : PipelineLoop) :
    (p.createSlot true).2.slots.get = Function.update p.slots.get p.nextSlot (some {}) :=
  get_insert _ _ _

/-- The node after `CreateSlot`. -/
def State.create (node : State) (ok : Bool) : State :=
  { node with loops := { node.loops with pipeline := (node.loops.pipeline.createSlot ok).2 } }

theorem getSlot_cases (node : State) (index : Nat) (autoCreate : Bool) (luck : SlotLuck) :
    (∃ slot, node.slots.get index = some slot ∧ getSlot node index autoCreate luck = (some slot, node)) ∨
    node.slots.get index = none ∧
      (getSlot node index autoCreate luck = (none, node) ∨
        (∃ ok slots, slots.get = node.slots.get ∧
          getSlot node index autoCreate luck = (none, { node.create ok with slots })) ∨
        getSlot node index autoCreate luck = (some { handle := some node.loops.pipeline.nextSlot },
          { node.create true with
            slots := node.slots.insert index { handle := some node.loops.pipeline.nextSlot } })) := by
  unfold getSlot
  split
  case h_1 slot hget => exact .inl ⟨slot, hget, rfl⟩
  case h_2 hget =>
    refine .inr ⟨hget, ?_⟩
    cases autoCreate with
    | false => exact .inl rfl
    | true =>
      refine .inr ?_
      cases luck.created with
      | false => exact .inl ⟨false, node.slots, rfl, rfl⟩
      | true =>
        cases luck.allocated with
        | false => exact .inl ⟨true, node.slots, rfl, rfl⟩
        | true =>
          cases luck.inserted with
          | false => exact .inl ⟨true, node.slots.refuse, rfl, rfl⟩
          | true => exact .inr rfl

theorem Safe.create (h : Safe node) (ok : Bool) : Safe (node.create ok) := by
  cases ok with
  | false => exact ⟨fun a s hs => (h.fit a s hs).mono fun _ _ => id, h.ports, h.handles, h.fresh, h.slots⟩
  | true =>
    refine ⟨?_, h.ports, h.handles, h.fresh, ?_⟩
    · refine fun a s hs => (h.fit a s hs).mono fun k s' hs' => ?_
      have hlt := h.slots k s' hs'
      rw [get_createSlot, Function.update_of_ne (by omega), hs']
    · intro k s hk
      change (node.loops.pipeline.createSlot true).2.slots.get k = some s at hk
      show k < node.loops.pipeline.nextSlot + 1
      rw [get_createSlot, Function.update_apply] at hk
      split at hk
      · omega
      · have := h.slots k s hk
        omega

theorem Safe.insert {s : PipelineSlot} (h : Safe node) (index : Nat) {k : Nat}
    (hk : node.loops.pipeline.slots.get k = some s) (hnew : ∀ a t, node.slots.get a = some t → t.handle ≠ some k) :
    Safe { node with slots := node.slots.insert index { handle := some k } } := by
  have hslots : ∀ a t, (node.slots.insert index { handle := some k }).get a = some t →
      (a = index ∧ t = { handle := some k }) ∨ (a ≠ index ∧ node.slots.get a = some t) := by
    intro a t ha
    rw [NodeMap.get_insert, Function.update_apply] at ha
    split at ha
    · exact .inl ⟨‹_›, (Option.some.inj ha).symm⟩
    · exact .inr ⟨‹_›, ha⟩
  refine ⟨?_, ?_, ?_, h.fresh, h.slots⟩
  · intro a t ha
    rcases hslots a t ha with ⟨-, rfl⟩ | ⟨-, ht⟩
    · refine ⟨⟨?_, ?_, ?_, h.fresh⟩, (fun hb => by cases hb), fun _ => ⟨k, rfl⟩⟩
      rotate_left
      · intro _ _ hi
        cases hi
      · intro _ _ _ hi
        cases hi
      rintro k' hk'
      cases hk'
      exact ⟨s, hk⟩
    · exact h.fit a t ht
  · intro a b t t' h' ha hb hh hh'
    rcases hslots a t ha with ⟨rfl, rfl⟩ | ⟨-, ht⟩
    · obtain ⟨i, hi⟩ := hh
      cases hi
    rcases hslots b t' hb with ⟨rfl, rfl⟩ | ⟨-, ht'⟩
    · obtain ⟨i, hi⟩ := hh'
      cases hi
    exact h.ports a b t t' h' ht ht' hh hh'
  · intro a b t t' h' ha hb hh hh'
    rcases hslots a t ha with ⟨rfl, rfl⟩ | ⟨-, ht⟩ <;> rcases hslots b t' hb with ⟨rfl, rfl⟩ | ⟨-, ht'⟩
    · rfl
    · cases hh
      exact absurd hh' (hnew b t' ht')
    · cases hh'
      exact absurd hh (hnew a t ht)
    · exact h.handles a b t t' h' ht ht' hh hh'

theorem Safe.congr {node' : State} (h : Safe node) (hslots : node'.slots.get = node.slots.get)
    (hloops : node'.loops = node.loops) : Safe node' := by
  obtain ⟨slots, used, loops⟩ := node'
  dsimp only at hslots hloops
  subst hloops
  refine ⟨?_, ?_, ?_, h.fresh, h.slots⟩ <;> rw [hslots]
  · exact h.fit
  · exact h.ports
  · exact h.handles

theorem Safe.found (h : Safe node) (index : Nat) (autoCreate : Bool) (luck : SlotLuck) :
    Safe (getSlot node index autoCreate luck).2 ∧
      (getSlot node index autoCreate luck).2.slots.get index = (getSlot node index autoCreate luck).1 := by
  rcases getSlot_cases node index autoCreate luck with
    ⟨slot, hget, heq⟩ | ⟨hget, heq | ⟨ok, slots, hsame, heq⟩ | heq⟩
  · rw [heq]
    exact ⟨h, hget⟩
  · rw [heq]
    exact ⟨h, hget⟩
  · rw [heq]
    exact ⟨(h.create ok).congr hsame rfl, hsame ▸ hget⟩
  · have hnew : ∀ a t, node.slots.get a = some t → t.handle ≠ some node.loops.pipeline.nextSlot := by
      intro a t ht hk
      obtain ⟨s, hs⟩ := (h.fit a t ht).backed.handle _ hk
      exact Nat.lt_irrefl _ (h.slots _ s hs)
    have hslot : (node.create true).loops.pipeline.slots.get node.loops.pipeline.nextSlot = some {} := by
      show (node.loops.pipeline.createSlot true).2.slots.get node.loops.pipeline.nextSlot = some {}
      rw [get_createSlot, Function.update_self]
    rw [heq]
    refine ⟨(h.create true).insert index hslot hnew, ?_⟩
    rw [NodeMap.get_insert, Function.update_self]

structure Untouched (node node' : State) : Prop where
  slots : node'.slots.get = node.slots.get
  used : node'.used = node.used
  loops : node'.loops = node.loops

/-- What a user can rely on after `configure`, `bind` or `connect`: if it failed, the slot is broken; and a
slot that was broken has been left alone. -/
structure Answer (node : State) (index : Nat) (r : Bool × State) : Prop where
  failed : r.1 = false → ∀ slot, r.2.slots.get index = some slot → slot.broken = true
  broken : ∀ slot, node.slots.get index = some slot → slot.broken = true → r.1 = false ∧ Untouched node r.2

/-- A method that works on a slot: `get_slot_`, the method itself, and what it does in the end. -/
def method (f : State → Slot → Except Panic (Bool × Slot × Loops))
    (g : Bool → Slot → State → Except Panic (Bool × State)) (node : State) (index : Nat) (luck : SlotLuck) :
    Except Panic (Bool × State) :=
  match getSlot node index true luck with
  | (none, node) => .ok (false, node)
  | (some slot, node) => do
    let (ok, slot, loops) ← f node slot
    g ok slot (node.putSlot index slot loops)

section Method

variable {f : State → Slot → Except Panic (Bool × Slot × Loops)}
  {g : Bool → Slot → State → Except Panic (Bool × State)}
  (hf : ∀ node' slot, Fit node'.loops slot → Yields (f node' slot) (Done slot node'.loops))
  (hbroken : ∀ node' slot, slot.broken = true → f node' slot = .ok (false, slot, node'.loops))
  (hg : ∀ ok slot node', Yields (g ok slot node') fun r => r.1 = ok ∧ r.2.slots = node'.slots ∧
    r.2.loops = node'.loops ∧ (ok = false → r.2 = node'))

include hf hbroken hg

theorem Safe.method_found {slot : Slot} (h : Safe node) (hslot : node.slots.get index = some slot) : Yields (do
      let (ok, slot, loops) ← f node slot
      g ok slot (node.putSlot index slot loops)) fun r =>
        Safe r.2 ∧ (r.1 = false → ∀ t, r.2.slots.get index = some t → t.broken = true) := by
  have hfit := h.fit index slot hslot
  -- the slot is fit after the method, also if it was broken before
  have hboth : Yields (f node slot) fun r => Done slot node.loops r ∧ Fit r.2.2 r.2.1 := by
    cases hb : slot.broken with
    | true => exact ⟨_, hbroken node slot hb, hfit.done_of_broken hb, hfit⟩
    | false => exact (hf node slot hfit).mono fun r hr => ⟨hr, hr.fit hfit hb⟩
  refine hboth.bind ?_
  rintro ⟨ok, slot', loops'⟩ ⟨hdone, hfit'⟩
  refine (hg ok slot' (node.putSlot index slot' loops')).mono ?_
  rintro ⟨ok', node'⟩ ⟨rfl, hslots, hloops, -⟩
  refine ⟨(h.put hslot hdone.effect hfit').congr (by rw [hslots]) hloops, ?_⟩
  intro hok t ht
  rw [hslots, State.putSlot, NodeMap.get_insert, Function.update_self] at ht
  cases ht
  exact (hdone.failed hok).broken

theorem Safe.method (h : Safe node) (luck : SlotLuck) :
    Yields (Node.method f g node index luck) fun r => Safe r.2 ∧ Answer node index r := by
  obtain ⟨hsafe, hget⟩ := h.found index true luck
  cases hslot : node.slots.get index with
  | some slot =>
    have hmethod : Node.method f g node index luck = (do
        let (ok, slot, loops) ← f node slot
        g ok slot (node.putSlot index slot loops)) := by
      simp only [Node.method, getSlot_found hslot]
    obtain ⟨r, hr, hsafe', hfailed⟩ := Safe.method_found hf hbroken hg h hslot
    refine ⟨r, hmethod.trans hr, hsafe', hfailed, ?_⟩
    intro t ht hb
    rw [hslot] at ht
    cases ht
    -- the method returns at once, and the slot goes back as it was
    rw [hbroken node slot hb] at hr
    obtain ⟨r', hr', hok, -, -, hnode⟩ := hg false slot (node.putSlot index slot node.loops)
    have hrr : r' = r := Except.ok.inj (hr'.symm.trans hr)
    subst hrr
    have hsame : (node.putSlot index slot node.loops).slots.get = node.slots.get := by
      rw [State.putSlot, NodeMap.get_insert, ← hslot, Function.update_eq_self]
    refine ⟨hok, ?_⟩
    rw [hnode rfl]
    exact ⟨hsame, rfl, rfl⟩
  | none =>
    unfold Node.method
    cases hfound : getSlot node index true luck with
    | mk found node1 =>
      rw [hfound] at hsafe hget
      cases found with
      | none =>
        refine .pure ⟨hsafe, ?_, fun t ht => by rw [hslot] at ht; cases ht⟩
        intro _ t ht
        rw [hget] at ht
        cases ht
      | some slot =>
        obtain ⟨r, hr, hsafe', hfailed⟩ := Safe.method_found hf hbroken hg hsafe hget
        exact ⟨r, hr, hsafe', hfailed, fun t ht => by rw [hslot] at ht; cases ht⟩

end Method

theorem configure_spec (kind : Kind) (iface : Interface) (config : UdpConfig) (luck : SlotLuck) (h : Safe node) :
    Yields (configure kind node index iface config luck) fun r => Safe r.2 ∧ Answer node index r := by
  refine Safe.method (f := fun node slot => configureSlot kind slot iface config node.loops)
    (g := fun ok _ node => .ok (ok, node)) ?_ ?_ ?_ h luck
  · exact fun _ _ hfit => configureSlot_done kind iface config hfit
  · exact fun _ _ hb => if_pos hb
  · exact fun _ _ _ => .pure ⟨rfl, rfl, rfl, fun _ => rfl⟩

/-- What `bind` does in the end. -/
def bindEnd (iface : Interface) (uri : EndpointUri) (ok : Bool) (slot : Slot) (node : State) :
    Except Panic (Bool × State) :=
  if ok then do
    let uri ← Receiver.reportPort slot iface uri
    return (true, { node with used := Function.update node.used iface (some uri.proto) })
  else .ok (false, node)

theorem bind_eq_method (node : State) (index : Nat) (iface : Interface) (uri : EndpointUri)
    (luck : BindLuck) : Receiver.call node (.attach index iface uri luck) =
      Node.method (fun node slot => Receiver.bindSlot node.used slot iface uri luck node.loops)
        (bindEnd iface uri) node index luck.slot := by
  simp only [Receiver.call, callWith, Receiver.bind, Node.method]
  cases getSlot node index true luck.slot with
  | mk found node1 =>
    cases found with
    | none => rfl
    | some slot =>
      dsimp only
      cases Receiver.bindSlot node1.used slot iface uri luck node1.loops with
      | error e => rfl
      | ok r =>
        obtain ⟨ok, slot', loops'⟩ := r
        cases ok with
        | false => rfl
        | true =>
          cases hport : Receiver.reportPort slot' iface uri <;>
            simp [bindEnd, hport, bind, Except.bind, pure, Except.pure]

theorem bind_spec (iface : Interface) (uri : EndpointUri) (luck : BindLuck) (h : Safe node) :
    Yields (Receiver.call node (.attach index iface uri luck)) fun r => Safe r.2 ∧ Answer node index r := by
  rw [bind_eq_method]
  refine Safe.method ?_ ?_ ?_ h luck.slot
  · exact fun _ _ hfit => bindSlot_done hfit
  · exact fun _ _ hb => if_pos hb
  · intro ok slot node'
    cases ok with
    | false => exact .pure ⟨rfl, rfl, rfl, fun _ => rfl⟩
    | true =>
      obtain ⟨uri', huri⟩ := reportPort_ok slot iface uri
      unfold bindEnd
      rw [if_pos rfl, huri]
      exact .pure ⟨rfl, rfl, rfl, nofun⟩

theorem connect_spec (iface : Interface) (uri : EndpointUri) (luck : ConnectLuck) (h : Safe node) :
    Yields (Sender.connect node index iface uri luck) fun r => Safe r.2 ∧ Answer node index r := by
  refine Safe.method (f := fun node slot => Sender.connectSlot node.used slot iface uri luck node.loops)
    (g := fun ok _ node =>
      if ok then .ok (true, { node with used := Function.update node.used iface (some uri.proto) })
      else .ok (false, node)) ?_ ?_ ?_ h luck.slot
  · exact fun _ _ hfit => connectSlot_done hfit
  · exact fun _ _ hb => if_pos hb
  · intro ok slot node'
    cases ok <;> exact .pure ⟨rfl, rfl, rfl, by simp⟩

theorem unlink_spec (kind : Kind) (index : Nat) (h : Safe node) :
    Yields (unlink kind node index) fun r => Safe r.2 ∧ r.2.slots.get index = none := by
  unfold unlink
  cases hslot : node.slots.get index with
  | none =>
    rw [getSlot_absent hslot]
    exact .pure ⟨h, hslot⟩
  | some slot =>
    rw [getSlot_found hslot]
    refine (cleanupSlot_spec kind (h.fit index slot hslot).backed).bind ?_
    rintro ⟨slot', loops'⟩ ⟨hcleaned, -⟩
    refine .pure ⟨h.erase hslot hcleaned, ?_⟩
    show (node.slots.erase index).get index = none
    rw [NodeMap.get_erase, Function.update_self]

theorem Safe.querySlot (h : Safe node) : Safe { node with loops := { node.loops with
      pipeline := { node.loops.pipeline with tasks := node.loops.pipeline.tasks + 1 } } } :=
  ⟨fun a s hs => (h.fit a s hs).mono fun _ _ => id, h.ports, h.handles, h.fresh, h.slots⟩

section
variable {slot : Slot} (h : Safe node) (hslot : node.slots.get index = some slot)
include h hslot

theorem getMetrics_whole (hnot : slot.broken = false) (buffer : Option Bool) :
    Yields (getMetrics node index buffer) fun r => Safe r.2 ∧ (r.1 = false → buffer = some false) := by
  unfold getMetrics
  rw [getSlot_found hslot]
  dsimp only
  split
  case isTrue hbuf => exact .pure ⟨h, fun _ => hbuf⟩
  case isFalse =>
    obtain ⟨k, s, hk, hs⟩ := (h.fit index slot hslot).pipelineSlot hnot
    have hquery : node.loops.pipeline.querySlot slot.handle =
        .ok { node.loops.pipeline with tasks := node.loops.pipeline.tasks + 1 } := by
      simp only [querySlot, find, hk, hs]
      rfl
    refine Yields.bind ⟨_, hquery, rfl⟩ ?_
    rintro _ rfl
    exact .pure ⟨h.querySlot, fun hr => by cases hr⟩

theorem getMetrics_broken (hb : slot.broken = true) (buffer : Option Bool) :
    getMetrics node index buffer = if buffer = some false then .ok (false, node) else .error .nullHandle := by
  unfold getMetrics
  rw [getSlot_found hslot]
  dsimp only
  split
  · rfl
  · have hnull : slot.handle = none := ((h.fit index slot hslot).broken hb).handle
    simp only [querySlot, find, hnull]
    rfl

end

theorem hasBroken_iff (node : State) :
    hasBroken node = true ↔ ∃ index slot, node.slots.get index = some slot ∧ slot.broken = true := by
  unfold hasBroken
  rw [List.any_eq_true]
  constructor
  · rintro ⟨⟨index, slot⟩, hmem, hb⟩
    exact ⟨index, slot, AList.mem_lookup_iff.mpr hmem, hb⟩
  · rintro ⟨index, slot, hget, hb⟩
    exact ⟨⟨index, slot⟩, AList.mem_lookup_iff.mp hget, hb⟩

end Calls

/-! ## Runs -/

/-- What the environment chooses for `bind` or `connect`. -/
def Luck : Kind → Type
  | .receiver => BindLuck
  | .sender => ConnectLuck

def Luck.slot : {kind : Kind} → Luck kind → SlotLuck
  | .receiver, luck => BindLuck.slot luck
  | .sender, luck => ConnectLuck.slot luck

/-- A call, up to what happens in the buckets of the slot map. -/
def userCall : (kind : Kind) → State → Call (Luck kind) → Except Panic (Bool × State)
  | .receiver => Receiver.call
  | .sender => Sender.call

def nodeCall (kind : Kind) (node : State) (c : Call (Luck kind)) : Except Panic (Bool × State) := do
  let r ← userCall kind node c
  match r.2.slotTable with
  | .error _ => throw .growth
  | .ok _ => return r

/-- The answer tells the truth about broken slots. A failure of `get_metrics` to get memory for the participants
is no failure of the slot. -/
def Truthful {β : Type} (node : State) (c : Call β) (r : Bool × State) : Prop :=
  match c with
  | .configure index _ _ _ | .attach index _ _ _ => Answer node index r
  | .unlink index => r.2.slots.get index = none
  | .getMetrics index buffer =>
    (r.1 = false → buffer ≠ some false → ∀ slot, r.2.slots.get index = some slot → slot.broken = true) ∧
    ∀ slot, node.slots.get index = some slot → slot.broken = true → r.1 = false ∧ Untouched node r.2
  | .hasBroken =>
    r.2 = node ∧ (r.1 = true ↔ ∃ index slot, node.slots.get index = some slot ∧ slot.broken = true)

/-- The call does not panic, and its answer is truthful. -/
def Handled (kind : Kind) (node : State) (c : Call (Luck kind)) : Prop :=
  Yields (nodeCall kind node c) (Truthful node c)

/-- `get_slot_` has to put a new slot into a slot map that is full, and whose rehashing has stopped inside the
previous buckets. -/
def CreatesBlocked (node : State) (index : Nat) (luck : SlotLuck) : Prop :=
  node.slots.get index = none ∧ luck.created = true ∧ luck.allocated = true ∧
    ∃ table, node.slotTable = .ok table ∧ table.Blocked

def GrowsBlocked {kind : Kind} (node : State) : Call (Luck kind) → Prop
  | .configure index _ _ luck => CreatesBlocked node index luck
  | .attach index _ _ luck => CreatesBlocked node index luck.slot
  | _ => False

def QueriesBroken {β : Type} (node : State) : Call β → Prop
  | .getMetrics index buffer =>
    buffer ≠ some false ∧ ∃ slot, node.slots.get index = some slot ∧ slot.broken = true
  | _ => False

section Runs

variable {kind : Kind} {node : State} {index : Nat} {iface : Interface}

theorem attach_spec {uri : EndpointUri} {luck : Luck kind} (h : Safe node) :
    Yields (userCall kind node (.attach index iface uri luck)) fun r => Safe r.2 ∧ Answer node index r := by
  cases kind with
  | receiver => exact bind_spec iface uri luck h
  | sender => exact connect_spec iface uri luck h

theorem userCall_configure {config : UdpConfig} {luck : SlotLuck} :
    userCall kind node (.configure index iface config luck) = configure kind node index iface config luck := by
  cases kind <;> rfl

theorem userCall_unlink : userCall kind node (.unlink index) = unlink kind node index := by
  cases kind <;> rfl

theorem userCall_getMetrics {buffer : Option Bool} :
    userCall kind node (.getMetrics index buffer) = getMetrics node index buffer := by
  cases kind <;> rfl

theorem userCall_hasBroken : userCall kind node .hasBroken = .ok (hasBroken node, node) := by
  cases kind <;> rfl

theorem Safe.call {c : Call (Luck kind)} {r : Bool × State} (h : Safe node)
    (hr : userCall kind node c = .ok r) : Safe r.2 := by
  have hof : ∀ {P : Bool × State → Prop}, (Yields (userCall kind node c) fun r => Safe r.2 ∧ P r) → Safe r.2 := by
    rintro P ⟨r', hr', hsafe, -⟩
    cases hr'.symm.trans hr
    exact hsafe
  cases c with
  | configure index iface config luck =>
    exact hof (userCall_configure ▸ configure_spec kind iface config luck h)
  | attach index iface uri luck => exact hof (attach_spec h)
  | unlink index => exact hof (userCall_unlink ▸ unlink_spec kind index h)
  | hasBroken =>
    rw [userCall_hasBroken] at hr
    cases hr
    exact h
  | getMetrics index buffer =>
    rw [userCall_getMetrics] at hr hof
    cases hslot : node.slots.get index with
    | none =>
      unfold getMetrics at hr
      rw [getSlot_absent hslot] at hr
      cases hr
      exact h
    | some slot =>
      cases hb : slot.broken with
      | false => exact hof (getMetrics_whole h hslot hb buffer)
      | true =>
        rw [getMetrics_broken h hslot hb] at hr
        split at hr
        · cases hr
          exact h
        · cases hr

theorem Safe.truthful (h : Safe node) (c : Call (Luck kind)) :
    Yields (userCall kind node c) (Truthful node c) ↔ ¬ QueriesBroken node c := by
  unfold Truthful
  cases c with
  | configure index iface config luck =>
    refine iff_of_true ?_ id
    rw [userCall_configure]
    exact (configure_spec kind iface config luck h).mono fun r hr => hr.2
  | attach index iface uri luck => exact iff_of_true ((attach_spec h).mono fun r hr => hr.2) id
  | unlink index =>
    refine iff_of_true ?_ id
    rw [userCall_unlink]
    exact (unlink_spec kind index h).mono fun r hr => hr.2
  | hasBroken =>
    refine iff_of_true ?_ id
    rw [userCall_hasBroken]
    exact .pure ⟨rfl, hasBroken_iff node⟩
  | getMetrics index buffer =>
    rw [userCall_getMetrics]
    cases hslot : node.slots.get index with
    | none =>
      refine iff_of_true ?_ fun hq => ?_
      · unfold getMetrics
        rw [getSlot_absent hslot]
        refine .pure ⟨fun _ _ slot hs => ?_, fun slot hs => ?_⟩
        · rw [hslot] at hs
          cases hs
        · rw [hslot] at hs
          cases hs
      · obtain ⟨-, slot, hs, -⟩ := hq
        rw [hslot] at hs
        cases hs
    | some slot =>
      cases hb : slot.broken with
      | false =>
        refine iff_of_true ?_ fun hq => ?_
        · refine (getMetrics_whole h hslot hb buffer).mono fun r hr => ⟨fun hok hbuf => ?_, fun t ht hb' => ?_⟩
          · exact absurd (hr.2 hok) hbuf
          · rw [hslot] at ht
            cases ht
            rw [hb] at hb'
            cases hb'
        · obtain ⟨-, t, ht, hb'⟩ := hq
          rw [hslot] at ht
          cases ht
          rw [hb] at hb'
          cases hb'
      | true =>
        rw [getMetrics_broken h hslot hb]
        by_cases hbuf : buffer = some false
        · rw [if_pos hbuf]
          refine iff_of_true (.pure ⟨fun _ hne => absurd hbuf hne, fun _ _ _ => ⟨rfl, rfl, rfl, rfl⟩⟩) ?_
          exact fun hq => hq.1 hbuf
        · rw [if_neg hbuf]
          refine iff_of_false ?_ (not_not_intro ⟨hbuf, slot, hslot, hb⟩)
          rintro ⟨r, hr, -⟩
          cases hr

/-! ### The buckets of the slot map -/

section
variable {table : Hashmap Nat}

theorem getSlot_table (luck : SlotLuck) (ht : node.slotTable = .ok table) :
    (∃ table', (getSlot node index true luck).2.slotTable = .ok table') ↔ ¬ CreatesBlocked node index luck := by
  have hblocked (hk : node.slots.get index = none) (hc : luck.created = true) (ha : luck.allocated = true) :
      ¬ table.Blocked ↔ ¬ CreatesBlocked node index luck := by
    refine not_congr ⟨fun hb => ⟨hk, hc, ha, table, ht, hb⟩, ?_⟩
    rintro ⟨-, -, -, table', ht', hb⟩
    cases ht.symm.trans ht'
    exact hb
  cases hk : node.slots.get index with
  | some slot =>
    rw [getSlot_found hk]
    exact iff_of_true ⟨table, ht⟩ fun hno => nomatch hk.symm.trans hno.1
  | none =>
    unfold getSlot
    rw [hk]
    cases hc : luck.created with
    | false => exact iff_of_true ⟨table, ht⟩ fun hno => nomatch hc.symm.trans hno.2.1
    | true =>
      cases ha : luck.allocated with
      | false => exact iff_of_true ⟨table, ht⟩ fun hno => nomatch ha.symm.trans hno.2.2.1
      | true =>
        rw [← hblocked hk hc ha]
        cases hi : luck.inserted with
        | false => exact NodeMap.table_refuse_iff ht
        | true => exact NodeMap.table_insert_iff hk ht

theorem method_table {f : State → Slot → Except Panic (Bool × Slot × Loops)}
    {g : Bool → Slot → State → Except Panic (Bool × State)} {luck : SlotLuck} {r : Bool × State}
    (hg : ∀ ok slot node' r, g ok slot node' = .ok r → r.2.slots = node'.slots) (h : Safe node)
    (hr : Node.method f g node index luck = .ok r) :
    r.2.slotTable = (getSlot node index true luck).2.slotTable := by
  obtain ⟨-, hget⟩ := h.found index true luck
  unfold Node.method at hr
  cases hfound : getSlot node index true luck with
  | mk found node1 =>
    rw [hfound] at hr hget
    cases found with
    | none =>
      cases hr
      rfl
    | some slot =>
      cases hf : f node1 slot with
      | error e =>
        simp only [hf] at hr
        cases hr
      | ok p =>
        simp only [hf] at hr
        unfold State.slotTable
        rw [hg _ _ _ r hr]
        exact NodeMap.table_insert_of_some hget

/-- Only a new slot can make the slot map panic. -/
theorem Safe.table_iff {c : Call (Luck kind)} {r : Bool × State} (h : Safe node) (ht : node.slotTable = .ok table)
    (hr : userCall kind node c = .ok r) : (∃ table', r.2.slotTable = .ok table') ↔ ¬ GrowsBlocked node c := by
  cases c with
  | configure index iface config luck =>
    rw [userCall_configure] at hr
    rw [method_table (f := fun node slot => configureSlot kind slot iface config node.loops)
      (g := fun ok _ node => .ok (ok, node)) (by rintro _ _ _ _ ⟨⟩; rfl) h hr]
    exact getSlot_table luck ht
  | attach index iface uri luck =>
    cases kind with
    | receiver =>
      rw [method_table ?_ h ((bind_eq_method node index iface uri luck).symm.trans hr)]
      · exact getSlot_table _ ht
      · intro ok slot node' r hend
        unfold bindEnd at hend
        split at hend
        · cases hport : Receiver.reportPort slot iface uri with
          | error e => rw [hport] at hend; cases hend
          | ok uri' => rw [hport] at hend; cases hend; rfl
        · cases hend
          rfl
    | sender =>
      rw [method_table (f := fun node slot => Sender.connectSlot node.used slot iface uri luck node.loops)
        (g := fun ok _ node =>
          if ok then .ok (true, { node with used := Function.update node.used iface (some uri.proto) })
          else .ok (false, node)) ?_ h hr]
      · exact getSlot_table _ ht
      · intro ok slot node' r hend
        cases ok <;> cases hend <;> rfl
  | unlink index =>
    refine iff_of_true ?_ id
    rw [userCall_unlink] at hr
    unfold unlink at hr
    cases hslot : node.slots.get index with
    | none =>
      rw [getSlot_absent hslot] at hr
      cases hr
      exact ⟨table, ht⟩
    | some slot =>
      rw [getSlot_found hslot] at hr
      obtain ⟨p, hclean, -⟩ := cleanupSlot_spec kind (h.fit index slot hslot).backed
      simp only [hclean] at hr
      cases hr
      exact NodeMap.table_erase ht
  | getMetrics index buffer =>
    refine iff_of_true ?_ id
    rw [userCall_getMetrics] at hr
    unfold getMetrics at hr
    cases hslot : node.slots.get index with
    | none =>
      rw [getSlot_absent hslot] at hr
      cases hr
      exact ⟨table, ht⟩
    | some slot =>
      rw [getSlot_found hslot] at hr
      dsimp only at hr
      split at hr
      · cases hr
        exact ⟨table, ht⟩
      · cases hq : node.loops.pipeline.querySlot slot.handle with
        | error e => rw [hq] at hr; cases hr
        | ok pipeline => rw [hq] at hr; cases hr; exact ⟨table, ht⟩
  | hasBroken =>
    rw [userCall_hasBroken] at hr
    cases hr
    exact iff_of_true ⟨table, ht⟩ id

end

theorem nodeCall_ok_iff {c : Call (Luck kind)} {r : Bool × State} :
    nodeCall kind node c = .ok r ↔ userCall kind node c = .ok r ∧ ∃ table, r.2.slotTable = .ok table := by
  unfold nodeCall
  cases hr : userCall kind node c with
  | error e => exact iff_of_false nofun nofun
  | ok r1 =>
    show (match r1.2.slotTable with | .error _ => throw Panic.growth | .ok _ => pure r1) = _ ↔ _
    cases ht : r1.2.slotTable with
    | error e =>
      refine iff_of_false nofun ?_
      rintro ⟨⟨⟩, table, htable⟩
      cases ht.symm.trans htable
    | ok table =>
      constructor
      · rintro ⟨⟩
        exact ⟨rfl, table, ht⟩
      · rintro ⟨⟨⟩, -⟩
        rfl

/-- The nodes that a user can get to by calls, whatever the tasks return. -/
def Reachable (kind : Kind) : State → Prop := Reaches (fun node => node = {}) (fun node (c : Call (Luck kind)) node' =>
    ∃ ok, nodeCall kind node c = .ok (ok, node')) fun _ _ => True

theorem Reachable.settled (h : Reachable kind node) : Safe node ∧ ∃ table, node.slotTable = .ok table := by
  refine Reaches.invariant (I := fun node => Safe node ∧ ∃ table, node.slotTable = .ok table) ?_ ?_ h
  · rintro _ rfl
    exact ⟨.initial, _, rfl⟩
  · rintro node c node' ⟨hsafe, -⟩ - ⟨ok, hr⟩
    obtain ⟨hcall, htable⟩ := nodeCall_ok_iff.mp hr
    exact ⟨hsafe.call hcall, htable⟩

theorem Reachable.safe (h : Reachable kind node) : Safe node := h.settled.1

/-- In whatever state calls have brought a node, a call does not panic and answers well if and only if it
is not a `get_metrics` that asks for the metrics of a broken slot, and does not need a new slot while the slot map
is blocked. -/
theorem handled_iff (h : Reachable kind node) (c : Call (Luck kind)) :
    Handled kind node c ↔ ¬ QueriesBroken node c ∧ ¬ GrowsBlocked node c := by
  obtain ⟨hsafe, table, ht⟩ := h.settled
  rw [← hsafe.truthful c]
  constructor
  · rintro ⟨r, hr, htruth⟩
    obtain ⟨hcall, htable⟩ := nodeCall_ok_iff.mp hr
    exact ⟨⟨r, hcall, htruth⟩, (hsafe.table_iff ht hcall).mp htable⟩
  · rintro ⟨⟨r, hcall, htruth⟩, hfree⟩
    exact ⟨r, nodeCall_ok_iff.mpr ⟨hcall, (hsafe.table_iff ht hcall).mpr hfree⟩, htruth⟩

/-- Unlinking a slot closes the ports and deletes the pipeline slot that it had, and those only: all the other slots
keep what they have. -/
theorem unlink_exact (h : Reachable kind node) {slot : Slot} (hslot : node.slots.get index = some slot) :
    ∃ node', unlink kind node index = .ok (true, node') ∧ node'.slots = node.slots.erase index ∧
      (∀ k, slot.Holds k → node'.loops.net.ports.get k = none) ∧
      (∀ k, ¬ slot.Holds k → node'.loops.net.ports.get k = node.loops.net.ports.get k) ∧
      (∀ k, node'.loops.pipeline.slots.get k =
        if slot.handle = some k then none else node.loops.pipeline.slots.get k) ∧
      ∀ other slot', other ≠ index → node.slots.get other = some slot' → node'.slots.get other = some slot' ∧
        (∀ k, slot'.Holds k → node'.loops.net.ports.get k = node.loops.net.ports.get k) ∧
        ∀ k, slot'.handle = some k → node'.loops.pipeline.slots.get k = node.loops.pipeline.slots.get k := by
  have hsafe := h.safe
  obtain ⟨⟨slot1, loops⟩, hclean, hc, -⟩ := cleanupSlot_spec kind (hsafe.fit index slot hslot).backed
  refine ⟨{ node with slots := node.slots.erase index, loops }, ?_, rfl, hc.removed, hc.others, fun k => ?_, ?_⟩
  · unfold unlink
    rw [getSlot_found hslot]
    dsimp only
    rw [hclean]
    rfl
  · split
    · next hk => exact hc.deleted k hk
    · next hk => exact hc.kept k hk
  · intro other slot' hne hother
    refine ⟨?_, fun k hk => hc.others k fun hk' => ?_, fun k hk => hc.kept k fun hk' => ?_⟩
    · show (node.slots.erase index).get other = some slot'
      rw [NodeMap.get_erase, Function.update_of_ne hne, hother]
    · exact hne (hsafe.ports other index slot' slot k hother hslot hk hk')
    · exact hne (hsafe.handles other index slot' slot k hother hslot hk hk')

def localhost : SocketAddr := ⟨.ipv4, 0x7f000001, 10001⟩

def rtpUri : EndpointUri := ⟨true, .rtp, 10001⟩

def bindRtp : Call BindLuck := .attach 0 .audioSource rtpUri { resolved := some localhost, bound := some localhost }

/-- Slot 0 is bound to a port and unlinked; slot 1, which is configured, stays. -/
theorem unlink_exact_bound : ∃ node slot, Reachable .receiver node ∧ node.loops.net.ports.get 0 ≠ none ∧
    node.slots.get 1 = some slot ∧ ∃ node', unlink .receiver node 0 = .ok (true, node') ∧
      node'.loops.net.ports.get 0 = none ∧ node'.loops.pipeline.slots.get 0 = none ∧ node'.slots.get 1 = some slot := by
  have hbound : Reachable .receiver _ := .step (a := bindRtp) (.start rfl) trivial ⟨true, rfl⟩
  have hreach : Reachable .receiver _ :=
    .step (a := .configure 1 .audioSource {} {}) hbound trivial ⟨true, rfl⟩
  obtain ⟨node', hunlink, -, hports, -, hslots, hothers⟩ := unlink_exact hreach (rfl : get _ 0 = some _)
  exact ⟨_, _, hreach, nofun, rfl, node', hunlink, hports 0 ⟨.audioSource, rfl⟩, hslots 0, (hothers 1 _ (by decide) rfl).1⟩

def badUri : EndpointUri := ⟨false, .none, -1⟩

/-- What slots own, after any calls with any failures: a slot that works has its pipeline slot, a broken one has
nothing, every port of a slot is open, and no two slots share a port or a pipeline slot. -/
theorem owned_of_reachable (h : Reachable kind node) {slot : Slot} (hslot : node.slots.get index = some slot) :
    (slot.broken = true → slot.handle = none ∧ ∀ k, ¬ slot.Holds k) ∧
    (slot.broken = false → ∃ k s, slot.handle = some k ∧ node.loops.pipeline.slots.get k = some s) ∧
    (∀ k, slot.Holds k → ∃ p, node.loops.net.ports.get k = some p) ∧
    ∀ other slot', node.slots.get other = some slot' → other ≠ index →
      (∀ k, slot.Holds k → ¬ slot'.Holds k) ∧ ∀ k, slot.handle = some k → slot'.handle ≠ some k := by
  have hsafe := h.safe
  have hfit := hsafe.fit index slot hslot
  refine ⟨fun hbroken => ?_, hfit.pipelineSlot, fun k ⟨i, hi⟩ => hfit.backed.ports i k hi, fun other slot' hother hne => ?_⟩
  · obtain ⟨-, hhandle, hports⟩ := hfit.broken hbroken
    exact ⟨hhandle, fun k ⟨i, hi⟩ => nomatch (hports i).symm.trans hi⟩
  · exact ⟨fun k hk hk' => hne (hsafe.ports other index slot' slot k hother hslot hk' hk),
      fun k hk hk' => hne (hsafe.handles other index slot' slot k hother hslot hk' hk)⟩

/-- A slot that broke when it was bound. -/
theorem owned_of_reachable_broken : ∃ node slot, Reachable .receiver node ∧ node.slots.get 0 = some slot ∧
    slot.broken = true ∧ slot.handle = none := by
  have hreach : Reachable .receiver _ :=
    .step (a := .attach 0 .audioSource badUri ({} : BindLuck)) (.start rfl) trivial ⟨false, rfl⟩
  exact ⟨_, _, hreach, rfl, rfl, ((owned_of_reachable hreach (rfl : get _ 0 = some _)).1 rfl).1⟩

/-- A second `connect` to a bad URI is answered like the first. -/
theorem handled_connectAgain : ∃ node, Reachable .sender node ∧ hasBroken node = true ∧
    Handled .sender node (.attach 0 .audioSource badUri ({} : ConnectLuck)) := by
  have hreach : Reachable .sender _ :=
    .step (a := .attach 0 .audioSource badUri ({} : ConnectLuck)) (.start rfl) trivial ⟨false, rfl⟩
  exact ⟨_, hreach, rfl, (handled_iff hreach _).mpr ⟨id, fun hnew => nomatch hnew.1⟩⟩

/-- `bind` and `connect` with a bad URI break the slot; `get_metrics` then panics. -/
theorem getMetrics_panics :
    (∃ node, Reachable .receiver node ∧ nodeCall .receiver node (.getMetrics 0 none) = .error .nullHandle) ∧
    (∃ node, Reachable .sender node ∧ nodeCall .sender node (.getMetrics 0 none) = .error .nullHandle) := by
  refine ⟨⟨_, .step (a := .attach 0 .audioSource badUri ({} : BindLuck)) (.start rfl) trivial ⟨false, rfl⟩, rfl⟩,
    ⟨_, .step (a := .attach 0 .audioSource badUri ({} : ConnectLuck)) (.start rfl) trivial ⟨false, rfl⟩, rfl⟩⟩

end Runs

end Roc.Node
