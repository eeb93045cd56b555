import RocToolkit.Node.SlotCalls

/-!
# RocToolkit.Node.Ports

The network ports of a receiver node. After every call the open ports are those whose handles are stored
in the slots, and they write to endpoints that exist (`Tidy`), as long as no `bind` opens a port for an
interface that is bound already (`Rebinds`). The first that does loses the handle of the old port: the port
stays open, no slot has it, and its endpoint goes away with the slot.
-/

namespace Roc.Node

open List

open Function (update update_apply update_of_ne update_self)

open Receiver Dict

open Roc.Core (NodeMap)

structure Tidy (node : State) : Prop where
  owned : ∀ h, (∃ p, node.loops.net.ports.get h = some p) ↔
    ∃ index slot, node.slots.get index = some slot ∧ slot.Holds h
  wired : ∀ h p e, node.loops.net.ports.get h = some p → p.inbound = some e →
    ∃ s, node.loops.pipeline.slots.get e.slot = some s ∧ e.iface ∈ s.endpoints

theorem Tidy.congr {node node' : State} (h : Tidy node) (hslots : node'.slots = node.slots)
    (hloops : node'.loops = node.loops) : Tidy node' := by
  constructor
  · rw [hslots, hloops]
    exact h.owned
  · rw [hloops]
    exact h.wired

def Plugged (loops : Loops) (slot : Slot) : Prop :=
  ∀ i h, (slot.ports i).handle = some h → ∃ k s p, slot.handle = some k ∧
    loops.pipeline.slots.get k = some s ∧ i ∈ s.endpoints ∧
    loops.net.ports.get h = some p ∧ p.inbound = some ⟨k, i⟩

structure Neat (node : State) : Prop where
  safe : Safe node
  owned : ∀ h p, node.loops.net.ports.get h = some p → ∃ index slot, node.slots.get index = some slot ∧ slot.Holds h
  plugged : ∀ index slot, node.slots.get index = some slot → Plugged node.loops slot

theorem Neat.initial : Neat {} := ⟨.initial, nofun, nofun⟩

theorem Neat.tidy {node : State} (h : Neat node) : Tidy node := by
  constructor
  · intro k
    constructor
    · rintro ⟨p, hp⟩
      exact h.owned k p hp
    · rintro ⟨index, slot, hslot, i, hi⟩
      exact (h.safe.fit index slot hslot).backed.ports i k hi
  · intro k p e hp he
    obtain ⟨index, slot, hslot, i, hi⟩ := h.owned k p hp
    obtain ⟨k', s, p', -, hs, hend, hp', he'⟩ := h.plugged index slot hslot i k hi
    rw [hp] at hp'
    cases hp'
    rw [he] at he'
    cases he'
    exact ⟨s, hs, hend⟩

section Steps

variable {node : State} {index : Nat} {slot slot' : Slot} {loops' : Loops}

section
variable (h : Neat node) (hget : node.slots.get index = some slot) (heffect : Effect slot node.loops slot' loops')
include h hget heffect

theorem Neat.plugged_other {a : Nat} {t : Slot} (ha : a ≠ index)
    (ht : node.slots.get a = some t) : Plugged loops' t := by
  intro i k hk
  obtain ⟨k', s, p, hk', hs, hend, hp, hin⟩ := h.plugged a t ht i k hk
  have hno : ¬ slot.Holds k := fun hh => ha (h.safe.ports a index t slot k ht hget ⟨i, hk⟩ hh)
  have hne : slot.handle ≠ some k' := fun hh => ha (h.safe.handles a index t slot k' ht hget hk' hh)
  refine ⟨k', s, p, hk', ?_, hend, ?_, hin⟩
  · rw [heffect.pipeline k' hne, hs]
  · rw [heffect.net k hno (h.safe.holds_lt ht ⟨i, hk⟩), hp]

theorem Neat.put (hfit : Fit loops' slot') (hplugged : Plugged loops' slot')
    (howned : ∀ k p, loops'.net.ports.get k = some p → slot'.Holds k ∨
      ¬ slot.Holds k ∧ ∃ q, node.loops.net.ports.get k = some q) : Neat (node.putSlot index slot' loops') := by
  have hput : (node.putSlot index slot' loops').slots.get = update node.slots.get index (some slot') :=
    NodeMap.get_insert _
  refine ⟨h.safe.put hget heffect hfit, ?_, ?_⟩
  · intro k p hp
    rcases howned k p hp with hk | ⟨hno, q, hq⟩
    · exact ⟨index, slot', by rw [hput, update_self], hk⟩
    · obtain ⟨a, t, ht, hk⟩ := h.owned k q hq
      refine ⟨a, t, ?_, hk⟩
      rw [hput, update_of_ne, ht]
      rintro rfl
      rw [hget] at ht
      cases ht
      exact hno hk
  · intro a t ht
    rw [hput, update_apply] at ht
    split at ht
    · cases ht
      exact hplugged
    · exact h.plugged_other hget heffect ‹_› ht

end

variable {loops : Loops} {iface : Interface} {r : Bool × Slot × Loops}

theorem Plugged.of_none (h : ∀ i, (slot.ports i).handle = none) : Plugged loops slot := by
  intro i k hk
  rw [h i] at hk
  cases hk

theorem Cleaned.owned (h : Cleaned slot loops slot' loops') {k : Nat} {p : UdpPort}
    (hp : loops'.net.ports.get k = some p) : ¬ slot.Holds k ∧ loops.net.ports.get k = some p := by
  by_cases hk : slot.Holds k
  · rw [h.removed k hk] at hp
    cases hp
  · rw [h.others k hk] at hp
    exact ⟨hk, hp⟩

section
variable (h : Neat node) (hget : node.slots.get index = some slot) (hcleaned : Cleaned slot node.loops slot' loops')
include h hget hcleaned

theorem Neat.broken (hbroken : Broken slot') : Neat (node.putSlot index slot' loops') := by
  have hb := (h.safe.fit index slot hget).backed
  have hfit : Fit loops' slot' :=
    ⟨hcleaned.backed hb, fun _ => hbroken, fun hno => absurd hno (by simp [hbroken.broken])⟩
  refine h.put hget hcleaned.effect hfit (.of_none hcleaned.ports) fun k p hp => .inr ?_
  obtain ⟨hno, hq⟩ := hcleaned.owned hp
  exact ⟨hno, p, hq⟩

theorem Neat.erase : Neat { node with slots := node.slots.erase index, loops := loops' } := by
  have herase : (node.slots.erase index).get = update node.slots.get index none := NodeMap.get_erase
  refine ⟨h.safe.erase hget hcleaned, ?_, ?_⟩
  · intro k p hp
    obtain ⟨hno, hq⟩ := hcleaned.owned hp
    obtain ⟨a, t, ht, hk⟩ := h.owned k p hq
    refine ⟨a, t, ?_, hk⟩
    show (node.slots.erase index).get a = some t
    rw [herase, update_of_ne, ht]
    rintro rfl
    rw [hget] at ht
    cases ht
    exact hno hk
  · intro a t ht
    change (node.slots.erase index).get a = some t at ht
    rw [herase, update_apply] at ht
    split at ht
    · cases ht
    · exact h.plugged_other hget hcleaned.effect ‹_› ht

end

theorem Neat.congr {node' : State} (h : Neat node) (hslots : node'.slots.get = node.slots.get)
    (hloops : node'.loops = node.loops) : Neat node' := by
  refine ⟨h.safe.congr hslots hloops, ?_, ?_⟩
  · rw [hslots, hloops]
    exact h.owned
  · rw [hslots, hloops]
    exact h.plugged

theorem Plugged.mono {pipeline : PipelineLoop} (h : Plugged loops slot)
    (hslots : ∀ k s, loops.pipeline.slots.get k = some s → pipeline.slots.get k = some s) :
    Plugged { loops with pipeline } slot := by
  intro i k hk
  obtain ⟨k', s, p, hk', hs, hrest⟩ := h i k hk
  exact ⟨k', s, p, hk', hslots k' s hs, hrest⟩

theorem Neat.create (h : Neat node) (ok : Bool) : Neat (node.create ok) := by
  refine ⟨h.safe.create ok, h.owned, fun a t ht => (h.plugged a t ht).mono fun k s hs => ?_⟩
  cases ok with
  | false => exact hs
  | true =>
    have hlt := h.safe.slots k s hs
    rw [get_createSlot, update_of_ne (by omega), hs]

theorem Neat.found (h : Neat node) (index : Nat) (autoCreate : Bool) (luck : SlotLuck) :
    Neat (getSlot node index autoCreate luck).2 := by
  obtain ⟨hsafe, -⟩ := h.safe.found index autoCreate luck
  rcases getSlot_cases node index autoCreate luck with
    ⟨slot, -, heq⟩ | ⟨hget, heq | ⟨ok, slots, hsame, heq⟩ | heq⟩
  · rw [heq]
    exact h
  · rw [heq]
    exact h
  · rw [heq]
    exact (h.create ok).congr hsame rfl
  · rw [heq] at hsafe ⊢
    have hcreated := h.create true
    refine ⟨hsafe, ?_, ?_⟩
    · intro k p hp
      obtain ⟨a, t, ht, hk⟩ := hcreated.owned k p hp
      refine ⟨a, t, ?_, hk⟩
      rw [NodeMap.get_insert, update_of_ne]
      · exact ht
      · rintro rfl
        cases hget.symm.trans ht
    · intro a t ht
      rw [NodeMap.get_insert, update_apply] at ht
      split at ht
      · cases ht
        exact .of_none fun _ => rfl
      · exact hcreated.plugged a t ht

/-- `configure` keeps the ports as they are, or removes those of the slot. -/
theorem Neat.configureSlot (h : Neat node) (hget : node.slots.get index = some slot) (iface : Interface)
    (config : UdpConfig) :
    Yields (configureSlot .receiver slot iface config node.loops) fun r =>
      Neat (node.putSlot index r.2.1 r.2.2) := by
  have hfit := h.safe.fit index slot hget
  unfold Node.configureSlot
  split
  case isTrue hb =>
    refine .pure (h.put hget (.refl _ _) hfit (h.plugged index slot hget) fun k p hp => ?_)
    by_cases hk : slot.Holds k
    · exact .inl hk
    · exact .inr ⟨hk, p, hp⟩
  split
  case isTrue =>
    refine (failSlot_spec .receiver hfit.backed).mono ?_
    rintro r ⟨-, hbroken, hcleaned⟩
    exact h.broken hget hcleaned hbroken
  case isFalse hb _ =>
    have hnot : slot.broken = false := by simpa using hb
    have hsame : ∀ j, ((slot.setPort iface { slot.ports iface with config }).ports j).handle =
        (slot.ports j).handle := setPort_same rfl
    refine .pure (h.put hget (.setPort rfl) ⟨hfit.backed.setPort rfl, fun hb => absurd hb (by simp [hnot]),
      hfit.handle⟩ ?_ fun k p hp => ?_)
    · intro i k hk
      rw [hsame] at hk
      exact h.plugged index slot hget i k hk
    · by_cases hk : slot.Holds k
      · obtain ⟨j, hj⟩ := hk
        exact .inl ⟨j, (hsame j).trans hj⟩
      · exact .inr ⟨hk, p, hp⟩

theorem Opened.holds_iff {k : Nat} {p : UdpPort} {s : PipelineSlot}
    (h : Opened k slot loops iface slot' loops' p s) (hnone : (slot.ports iface).handle = none) (h' : Nat) :
    slot'.Holds h' ↔ h' = loops.net.nextPort ∨ slot.Holds h' := by
  constructor
  · rintro ⟨j, hj⟩
    rcases h.holds hj with ⟨-, rfl⟩ | ⟨-, hj⟩
    · exact .inl rfl
    · exact .inr ⟨j, hj⟩
  · rintro (rfl | ⟨j, hj⟩)
    · exact ⟨iface, (h.ports iface).trans (if_pos rfl)⟩
    · refine ⟨j, (h.ports j).trans ?_⟩
      rw [if_neg, hj]
      rintro rfl
      rw [hnone] at hj
      cases hj

section
variable (h : Neat node) (hget : node.slots.get index = some slot)
include h hget

theorem Neat.bound {k : Nat} (hnot : slot.broken = false) (hk : slot.handle = some k)
    (hnone : (slot.ports iface).handle = none) (hr : Bound k slot node.loops iface r) :
    Neat (node.putSlot index r.2.1 r.2.2) := by
  have hfit := h.safe.fit index slot hget
  have hdone := hr.done hfit.backed hnot hk
  refine h.put hget hdone.effect (hdone.fit hfit hnot) ?_ ?_
  · cases hr with
    | failed _ hbroken _ => exact .of_none hbroken.ports
    | @succeeded slot1 loops1 p s0 hs hnew hopened hp =>
      intro i h' hi
      rcases hopened.holds hi with ⟨rfl, rfl⟩ | ⟨-, hi'⟩
      · refine ⟨k, ⟨s0.endpoints ++ [i]⟩, p, hopened.handle.trans hk, ?_, ?_, ?_, hp⟩
        · rw [hopened.pipeline, update_self]
        · exact mem_append_right _ (mem_singleton.mpr rfl)
        · rw [hopened.net, update_self]
      · obtain ⟨k', s, q, hk', hs', hend, hq, hin⟩ := h.plugged index slot hget i h' hi'
        rw [hk] at hk'
        cases hk'
        rw [hs] at hs'
        cases hs'
        have hlt := h.safe.fresh h' q hq
        refine ⟨k, ⟨s0.endpoints ++ [iface]⟩, q, hopened.handle.trans hk, ?_, mem_append_left _ hend, ?_, hin⟩
        · rw [hopened.pipeline, update_self]
        · rw [hopened.net, update_of_ne (by omega), hq]
  · cases hr with
    | failed hopened hbroken hcleaned =>
      intro h' p hp
      obtain ⟨hno, hq⟩ := hcleaned.owned hp
      rw [hopened.holds_iff hnone, not_or] at hno
      rw [hopened.net, update_of_ne hno.1] at hq
      exact .inr ⟨hno.2, p, hq⟩
    | succeeded _ _ hopened _ =>
      intro h' p hp
      rw [hopened.holds_iff hnone]
      rw [hopened.net, update_apply] at hp
      split at hp
      · exact .inl (.inl ‹_›)
      · by_cases hh : slot.Holds h'
        · exact .inl (.inr hh)
        · exact .inr ⟨hh, p, hp⟩

/-- `bind` of an interface that has a port: the port stays open and nobody has its handle. -/
theorem Neat.rebound {k h0 : Nat} (hsome : (slot.ports iface).handle = some h0) (hr : Bound k slot node.loops iface r) :
    ¬ Tidy (node.putSlot index r.2.1 r.2.2) := by
  intro htidy
  have hfit := h.safe.fit index slot hget
  obtain ⟨p0, hp0⟩ := hfit.backed.ports iface h0 hsome
  have hlt := h.safe.fresh h0 p0 hp0
  -- the slot that has opened another port does not hold the old one any more
  have hlost : ∀ {slot1 loops1 p s}, Opened k slot node.loops iface slot1 loops1 p s →
      ¬ slot1.Holds h0 ∧ loops1.net.ports.get h0 = some p0 := by
    intro slot1 loops1 p s hopened
    constructor
    · rintro ⟨j, hj⟩
      rcases hopened.holds hj with ⟨-, rfl⟩ | ⟨hne, hj⟩
      · omega
      · exact hne (hfit.backed.apart j iface h0 hj hsome)
    · rw [hopened.net, update_of_ne (by omega), hp0]
  have hopen : r.2.2.net.ports.get h0 = some p0 ∧ ¬ r.2.1.Holds h0 := by
    cases hr with
    | failed hopened hbroken hcleaned =>
      obtain ⟨hno, hp⟩ := hlost hopened
      refine ⟨(hcleaned.others h0 hno).trans hp, ?_⟩
      rintro ⟨j, hj⟩
      rw [hbroken.ports j] at hj
      cases hj
    | succeeded _ _ hopened _ => exact ⟨(hlost hopened).2, (hlost hopened).1⟩
  obtain ⟨a, t, ht, hh⟩ := (htidy.owned h0).mp ⟨p0, hopen.1⟩
  rw [State.putSlot, NodeMap.get_insert, update_apply] at ht
  split at ht
  · cases ht
    exact hopen.2 hh
  · exact ‹¬ a = index› (h.safe.ports a index t slot h0 ht hget hh ⟨iface, hsome⟩)

end
end Steps

/-! ## Calls -/

def PortCall : Call BindLuck → Prop
  | .configure _ _ _ _ | .attach _ _ _ _ | .unlink _ => True
  | .getMetrics _ _ | .hasBroken => False

/-- A `bind` that opens a port for an interface that has one. -/
def Rebinds (node : State) : Call BindLuck → Prop
  | .attach index iface uri luck => ∃ slot, node.slots.get index = some slot ∧ slot.broken = false ∧
      (slot.ports iface).handle.isSome = true ∧ Receiver.opens node.used iface uri luck = true
  | _ => False

section Calls

variable {node : State} {index : Nat} {slot : Slot}

variable {iface : Interface} {uri : EndpointUri} {luck : BindLuck}

/-- `bind` once the slot is there: it ends as its part about the slot does. -/
theorem bind_found {node1 : State}
    {r : Bool × Slot × Loops} (hfound : getSlot node index true luck.slot = (some slot, node1))
    (hbind : bindSlot node1.used slot iface uri luck node1.loops = .ok r) :
    Yields (call node (.attach index iface uri luck)) fun r' =>
      r'.2.slots = (node1.putSlot index r.2.1 r.2.2).slots ∧
        r'.2.loops = (node1.putSlot index r.2.1 r.2.2).loops := by
  obtain ⟨ok, slot', loops'⟩ := r
  rw [bind_eq_method, Node.method, hfound]
  dsimp only
  rw [hbind]
  obtain ⟨uri', huri⟩ := reportPort_ok slot' iface uri
  cases ok with
  | false => exact .pure ⟨rfl, rfl⟩
  | true =>
    show Yields (bindEnd iface uri true slot' _) _
    unfold bindEnd
    rw [if_pos rfl, huri]
    exact .pure ⟨rfl, rfl⟩

theorem Neat.bind (h : Neat node) (hno : ¬ Rebinds node (.attach index iface uri luck)) :
    Yields (call node (.attach index iface uri luck)) fun r => Neat r.2 := by
  have hneat := h.found index true luck.slot
  obtain ⟨-, hget⟩ := h.safe.found index true luck.slot
  cases hfound : getSlot node index true luck.slot with
  | mk found node1 =>
    rw [hfound] at hneat hget
    cases found with
    | none =>
      rw [bind_eq_method, Node.method, hfound]
      exact .pure hneat
    | some slot =>
      have hfit := hneat.safe.fit index slot hget
      cases hb : slot.broken with
      | true =>
        have hbind : bindSlot node1.used slot iface uri luck node1.loops = .ok (false, slot, node1.loops) := if_pos hb
        refine (bind_found hfound hbind).mono ?_
        rintro ⟨ok, node'⟩ ⟨hslots, hloops⟩
        have hput : Neat (node1.putSlot index slot node1.loops) :=
          hneat.put hget (.refl _ _) hfit (hneat.plugged index slot hget) fun k p hp => by
            by_cases hk : slot.Holds k
            · exact .inl hk
            · exact .inr ⟨hk, p, hp⟩
        exact hput.congr (by rw [hslots]) hloops
      | false =>
        obtain ⟨k, s, hk, hs⟩ := hfit.pipelineSlot hb
        obtain ⟨r, hr, hspec⟩ := bindSlot_spec node1.used iface uri luck hfit.backed hb hk hs
        refine (bind_found hfound hr).mono ?_
        rintro ⟨ok, node'⟩ ⟨hslots, hloops⟩
        have hput : Neat (node1.putSlot index r.2.1 r.2.2) := by
          split at hspec
          case isFalse => exact hneat.broken hget hspec.2.2 hspec.2.1
          case isTrue hopens =>
            refine hneat.bound hget hb hk ?_ hspec
            -- a slot that was there has no port by assumption, a new one has none at all
            rcases getSlot_cases node index true luck.slot with ⟨t, ht, heq⟩ | ⟨-, heq | ⟨_, _, _, heq⟩ | heq⟩ <;>
              cases hfound.symm.trans heq
            · by_contra hsome
              exact hno ⟨slot, ht, hb, by simpa using Option.isSome_iff_ne_none.mpr hsome, hopens⟩
            · rfl
        exact hput.congr (by rw [hslots]) hloops

theorem Neat.rebind (h : Neat node) (hre : Rebinds node (.attach index iface uri luck)) :
    Yields (call node (.attach index iface uri luck)) fun r => ¬ Tidy r.2 := by
  obtain ⟨slot, hslot, hnot, hsome, hopens⟩ := hre
  obtain ⟨h0, hh0⟩ := Option.isSome_iff_exists.mp hsome
  have hfit := h.safe.fit index slot hslot
  obtain ⟨k, s, hk, hs⟩ := hfit.pipelineSlot hnot
  obtain ⟨r, hr, hbound⟩ := bindSlot_spec node.used iface uri luck hfit.backed hnot hk hs
  rw [if_pos hopens] at hbound
  refine (bind_found (getSlot_found hslot true luck.slot) hr).mono ?_
  rintro ⟨ok, node'⟩ ⟨hslots, hloops⟩ htidy
  exact h.rebound hslot hh0 hbound (htidy.congr hslots.symm hloops.symm)

/-- A call that works on ports, from a node as it should be: it leaves the node so, unless it binds an
interface twice. -/
theorem Neat.call (h : Neat node) {c : Call BindLuck} (hc : PortCall c) :
    (¬ Rebinds node c → Yields (call node c) fun r => Neat r.2) ∧
      (Rebinds node c → Yields (call node c) fun r => ¬ Tidy r.2) := by
  cases c with
  | attach index iface uri luck => exact ⟨h.bind, h.rebind⟩
  | configure index iface config luck =>
    refine ⟨fun _ => ?_, False.elim⟩
    show Yields (configure .receiver node index iface config luck) _
    have hneat := h.found index true luck
    obtain ⟨-, hget⟩ := h.safe.found index true luck
    unfold configure
    cases hfound : getSlot node index true luck with
    | mk found node1 =>
      rw [hfound] at hneat hget
      cases found with
      | none => exact .pure hneat
      | some slot =>
        refine (hneat.configureSlot hget iface config).bind ?_
        exact fun r hr => .pure hr
  | unlink index =>
    refine ⟨fun _ => ?_, False.elim⟩
    show Yields (unlink .receiver node index) _
    unfold unlink
    cases hslot : node.slots.get index with
    | none =>
      rw [getSlot_absent hslot]
      exact .pure h
    | some slot =>
      rw [getSlot_found hslot]
      refine (cleanupSlot_spec .receiver (h.safe.fit index slot hslot).backed).bind ?_
      rintro ⟨slot', loops'⟩ ⟨hcleaned, -⟩
      exact .pure (h.erase hslot hcleaned)
  | getMetrics index buffer => exact hc.elim
  | hasBroken => exact hc.elim

end Calls

/-! ## Runs -/

def after (calls : List (Call BindLuck)) : Except Panic State := calls.foldlM (fun node c => do
    let (_, node) ← Receiver.call node c
    return node) {}

section Runs

variable {calls : List (Call BindLuck)} {k : Nat}

theorem after_succ {c : Call BindLuck} (hc : calls[k]? = some c) : after (calls.take (k + 1)) = (do
      let node ← after (calls.take k)
      let (_, node) ← call node c
      return node) := by
  simp only [after, take_add_one, hc, Option.toList_some, foldlM_append, foldlM_cons, foldlM_nil, bind_pure]

theorem after_of_length_le (h : calls.length ≤ k) : after (calls.take (k + 1)) = after (calls.take k) := by
  rw [take_of_length_le h, take_of_length_le (by omega)]

theorem neat_after (hcalls : ∀ c ∈ calls, PortCall c)
    (h : ∀ j, j < k → ∀ c node, calls[j]? = some c → after (calls.take j) = .ok node → ¬ Rebinds node c) :
    Yields (after (calls.take k)) Neat := by
  induction k with
  | zero => exact .pure Neat.initial
  | succ k ih =>
    obtain ⟨node, hnode, hneat⟩ := ih fun j hj => h j (by omega)
    by_cases hk : k < calls.length
    · have hc : calls[k]? = some calls[k] := List.getElem?_eq_getElem hk
      rw [after_succ hc, hnode]
      obtain ⟨r, hr, hneat'⟩ := (hneat.call (hcalls _ (getElem_mem hk))).1 (h k (by omega) _ node hc hnode)
      show Yields (call node calls[k] >>= _) _
      rw [hr]
      exact .pure hneat'
    · rw [after_of_length_le (by omega)]
      exact ⟨node, hnode, hneat⟩

/-- After every call there are no leaked and no dangling ports, if and only if no `bind` of the sequence
opens a port for an interface that has one. -/
theorem tidy_iff (calls : List (Call BindLuck)) (hcalls : ∀ c ∈ calls, PortCall c) :
    (∀ k, Yields (after (calls.take k)) Tidy) ↔
      ∀ k c node, calls[k]? = some c → after (calls.take k) = .ok node → ¬ Rebinds node c := by
  constructor
  · intro htidy k
    induction k using Nat.strongRecOn with
    | _ k ih =>
      intro c node hc hnode hre
      obtain ⟨node', hnode', hneat⟩ := neat_after hcalls ih
      cases hnode.symm.trans hnode'
      -- the call leaves a port that nobody has
      obtain ⟨hk, rfl⟩ := List.getElem?_eq_some_iff.mp hc
      obtain ⟨r, hr, hnot⟩ := (hneat.call (hcalls _ (List.getElem_mem hk))).2 hre
      obtain ⟨node'', hnode'', htidy''⟩ := htidy (k + 1)
      rw [after_succ hc, hnode] at hnode''
      change (Receiver.call node calls[k] >>= _) = _ at hnode''
      rw [hr] at hnode''
      cases hnode''
      exact hnot htidy''
  · intro h k
    exact (neat_after hcalls fun j _ => h j).mono fun _ => Neat.tidy

/-- Binding an interface and unlinking the slot. -/
theorem tidy_bindUnlink : Yields (after [bindRtp, .unlink 0]) Tidy := by
  refine (tidy_iff [bindRtp, .unlink 0] ?_).mpr ?_ 2
  · intro c hc
    simp only [List.mem_cons, List.not_mem_nil, or_false] at hc
    rcases hc with rfl | rfl <;> trivial
  · intro k c node hc hnode
    match k, hc with
    | 0, hc =>
      cases hc
      cases hnode
      rintro ⟨slot, hslot, -⟩
      cases hslot
    | 1, hc =>
      cases hc
      exact id

/-- Binding an interface twice: the second `bind` opens another port, fails to add an endpoint and breaks
the slot. The first port stays open, with no slot to hold it, and writes to an endpoint that is gone. -/
theorem bindTwice_leaks : Yields (after [bindRtp, bindRtp]) fun node =>
    node.loops.net.ports.get 0 = some { inbound := some ⟨0, .audioSource⟩ } ∧
    node.loops.pipeline.slots.get 0 = none ∧ node.slots.keys = [0] ∧
    ∀ i, ((node.slots.get 0).map fun slot => (slot.ports i).handle) = some none :=
  ⟨_, rfl, rfl, rfl, rfl, fun i => by cases i <;> rfl⟩

end Runs

end Roc.Node
