import RocToolkit.Node.Nodes
import RocToolkit.Lib.Loop

/-!
# RocToolkit.Node.SlotSafety

No call on a slot panics, with one exception: `get_metrics` of a broken slot, which is still in the map
but has no pipeline slot any more. What a method does to the slot it has found is `Effect`: it leaves the
ports and pipeline slots of the others alone. The slot keeps what its handles stand for (`Backed`), so
every task that gets one of them finds it.
-/

namespace Roc.Node

open Roc.Core (NodeMap)

open Function (update update_apply update_eq_self update_idem update_of_ne update_self)

open Receiver Dict NetworkLoop Yields Sender Option

def Slot.Holds (slot : Slot) (h : Nat) : Prop := ∃ i, (slot.ports i).handle = some h

structure Backed (loops : Loops) (slot : Slot) : Prop where
  handle : ∀ h, slot.handle = some h → ∃ s, loops.pipeline.slots.get h = some s
  ports : ∀ i h, (slot.ports i).handle = some h → ∃ p, loops.net.ports.get h = some p
  apart : ∀ i j h, (slot.ports i).handle = some h → (slot.ports j).handle = some h → i = j
  fresh : ∀ h p, loops.net.ports.get h = some p → h < loops.net.nextPort

structure Effect (slot : Slot) (loops : Loops) (slot' : Slot) (loops' : Loops) : Prop where
  net : ∀ h, ¬ slot.Holds h → h < loops.net.nextPort → loops'.net.ports.get h = loops.net.ports.get h
  pipeline : ∀ h, slot.handle ≠ some h → loops'.pipeline.slots.get h = loops.pipeline.slots.get h
  handle : ∀ h, slot'.handle = some h → slot.handle = some h
  holds : ∀ h, slot'.Holds h → slot.Holds h ∨ loops.net.nextPort ≤ h
  nextPort : loops.net.nextPort ≤ loops'.net.nextPort
  nextSlot : loops'.pipeline.nextSlot = loops.pipeline.nextSlot

theorem Effect.refl (slot : Slot) (loops : Loops) : Effect slot loops slot loops :=
  ⟨fun _ _ _ => rfl, fun _ _ => rfl, fun _ => id, fun _ => .inl, Nat.le_refl _, rfl⟩

theorem Effect.trans {slot slot1 slot2 : Slot} {loops loops1 loops2 : Loops}
    (h : Effect slot loops slot1 loops1) (h' : Effect slot1 loops1 slot2 loops2) :
    Effect slot loops slot2 loops2 where
  net k hk hlt := by
    have hk1 : ¬ slot1.Holds k := by
      intro hk1
      rcases h.holds k hk1 with hk' | hk'
      · exact hk hk'
      · omega
    rw [h'.net k hk1 (Nat.lt_of_lt_of_le hlt h.nextPort), h.net k hk hlt]
  pipeline k hk := by
    have hk1 : slot1.handle ≠ some k := fun hk1 => hk (h.handle k hk1)
    rw [h'.pipeline k hk1, h.pipeline k hk]
  handle k hk := h.handle k (h'.handle k hk)
  holds k hk := by
    rcases h'.holds k hk with hk | hk
    · exact h.holds k hk
    · exact .inr (Nat.le_trans h.nextPort hk)
  nextPort := Nat.le_trans h.nextPort h'.nextPort
  nextSlot := h'.nextSlot.trans h.nextSlot

section Tasks

variable {slot : Slot} {loops : Loops} {i : Interface}

@[simp] theorem setPort_ports (slot : Slot) (i j : Interface) (port : Port) :
    (slot.setPort i port).ports j = if j = i then port else slot.ports j := by
  simp [Slot.setPort, update_apply]

@[simp] theorem setPort_handle (slot : Slot) (i : Interface) (port : Port) :
    (slot.setPort i port).handle = slot.handle := rfl

@[simp] theorem setPort_broken (slot : Slot) (i : Interface) (port : Port) :
    (slot.setPort i port).broken = slot.broken := rfl

theorem setPort_setPort (slot : Slot) (i : Interface) (p q : Port) :
    (slot.setPort i p).setPort i q = slot.setPort i q := by
  simp [Slot.setPort]

variable {port : Port} {k : Nat} {p : UdpPort} {handle : Option Nat}

theorem setPort_same (hp : port.handle = (slot.ports i).handle) (j : Interface) :
    ((slot.setPort i port).ports j).handle = (slot.ports j).handle := by
  rw [setPort_ports]
  split
  · rename_i hj
    rw [hp, hj]
  · rfl

theorem Effect.setPort (hp : port.handle = (slot.ports i).handle) : Effect slot loops (slot.setPort i port) loops where
  net _ _ _ := rfl
  pipeline _ _ := rfl
  handle _ := id
  holds h hh := by
    obtain ⟨j, hj⟩ := hh
    exact .inl ⟨j, setPort_same hp j ▸ hj⟩
  nextPort := Nat.le_refl _
  nextSlot := rfl

theorem Backed.setPort (h : Backed loops slot) (hp : port.handle = (slot.ports i).handle) :
    Backed loops (slot.setPort i port) where
  handle := h.handle
  ports j k hk := h.ports j k (setPort_same hp j ▸ hk)
  apart j j' k hj hj' := h.apart j j' k (setPort_same hp j ▸ hj) (setPort_same hp j' ▸ hj')
  fresh := h.fresh

/-- A new port `p` was opened and its handle stored for an interface; the pipeline slot of the slot is now
`s`. Nothing else has changed. -/
structure Opened (k : Nat) (slot : Slot) (loops : Loops) (i : Interface) (slot' : Slot) (loops' : Loops)
    (p : UdpPort) (s : PipelineSlot) : Prop where
  handle : slot'.handle = slot.handle
  broken : slot'.broken = slot.broken
  ports : ∀ j, (slot'.ports j).handle = if j = i then some loops.net.nextPort else (slot.ports j).handle
  net : loops'.net.ports.get = update loops.net.ports.get loops.net.nextPort (some p)
  nextPort : loops'.net.nextPort = loops.net.nextPort + 1
  pipeline : loops'.pipeline.slots.get = update loops.pipeline.slots.get k (some s)
  nextSlot : loops'.pipeline.nextSlot = loops.pipeline.nextSlot

section

variable {k : Nat} {slot' : Slot} {loops' : Loops} {p : UdpPort} {s : PipelineSlot}

section
variable (h : Opened k slot loops i slot' loops' p s)
include h

theorem Opened.holds {j : Interface} {h' : Nat} (hj : (slot'.ports j).handle = some h') :
    (j = i ∧ h' = loops.net.nextPort) ∨ (j ≠ i ∧ (slot.ports j).handle = some h') := by
  rw [h.ports j] at hj
  split at hj
  · exact .inl ⟨‹_›, (some.inj hj).symm⟩
  · exact .inr ⟨‹_›, hj⟩

theorem Opened.effect (hk : slot.handle = some k) : Effect slot loops slot' loops' where
  net h' _ hlt := by rw [h.net, update_of_ne (by omega)]
  pipeline h' hne := by
    rw [h.pipeline, update_of_ne]
    rintro rfl
    exact hne hk
  handle h' hh := h.handle ▸ hh
  holds h' hh := by
    obtain ⟨j, hj⟩ := hh
    rcases h.holds hj with ⟨-, rfl⟩ | ⟨-, hj⟩
    · exact .inr (Nat.le_refl _)
    · exact .inl ⟨j, hj⟩
  nextPort := by rw [h.nextPort]; exact Nat.le_succ _
  nextSlot := h.nextSlot

theorem Opened.backed (hb : Backed loops slot) : Backed loops' slot' := by
  have hold : ∀ j h', (slot.ports j).handle = some h' → h' ≠ loops.net.nextPort := by
    intro j h' hj
    obtain ⟨q, hget⟩ := hb.ports j h' hj
    have := hb.fresh h' q hget
    omega
  refine ⟨?_, ?_, ?_, ?_⟩
  · intro h' hh
    rw [h.pipeline, update_apply]
    split
    · exact ⟨s, rfl⟩
    · exact hb.handle h' (h.handle ▸ hh)
  · intro j h' hj
    rw [h.net, update_apply]
    rcases h.holds hj with ⟨-, rfl⟩ | ⟨-, hj⟩
    · exact ⟨p, if_pos rfl⟩
    · rw [if_neg (hold j h' hj)]
      exact hb.ports j h' hj
  · intro j j' h' hj hj'
    rcases h.holds hj with ⟨rfl, rfl⟩ | ⟨-, hj⟩ <;> rcases h.holds hj' with ⟨rfl, hk'⟩ | ⟨-, hj'⟩
    · rfl
    · exact absurd rfl (hold j' _ hj')
    · exact absurd hk' (hold j h' hj)
    · exact hb.apart j j' h' hj hj'
  · intro h' q hget
    rw [h.net, update_apply] at hget
    rw [h.nextPort]
    split at hget
    · omega
    · have := hb.fresh h' q hget
      omega

end
end

variable {s : PipelineSlot} {net : NetworkLoop}

theorem opened_addUdpPort (address : SocketAddr)
    (hs : loops.pipeline.slots.get k = some s) (hp : port.handle = some loops.net.nextPort) :
    Opened k slot loops i (slot.setPort i port)
      { loops with net := (loops.net.addUdpPort (some address)).2 } {} s where
  handle := rfl
  broken := rfl
  ports j := by
    rw [setPort_ports]
    split
    · exact hp
    · rfl
  net := get_insert _ _ _
  nextPort := rfl
  pipeline := by rw [← hs, update_eq_self]
  nextSlot := rfl

theorem Backed.setUdpPort (h : Backed loops slot) (hk : (slot.ports i).handle = some k) :
    Backed { loops with net := { loops.net with ports := loops.net.ports.insert k p } } slot ∧
      Effect slot loops slot { loops with net := { loops.net with ports := loops.net.ports.insert k p } } := by
  obtain ⟨q, hq⟩ := h.ports i k hk
  constructor
  · refine ⟨h.handle, ?_, h.apart, ?_⟩
    · intro j k' hk'
      simp only [get_insert, update_apply]
      split
      · exact ⟨p, rfl⟩
      · exact h.ports j k' hk'
    · intro k' p' hk'
      simp only [get_insert, update_apply] at hk'
      split at hk'
      · rename_i he
        exact he ▸ h.fresh k q hq
      · exact h.fresh k' p' hk'
  · refine ⟨?_, fun _ _ => rfl, fun _ => id, fun _ => .inl, Nat.le_refl _, rfl⟩
    intro k' hno _
    simp only [get_insert, update_apply]
    rw [if_neg (by rintro rfl; exact hno ⟨i, hk⟩)]

theorem startUdpSend_eq {h : Nat} (ok : Bool) (hfind : net.find handle = .ok (h, p)) :
    net.startUdpSend handle ok = .ok (ok,
      if ok then { net with ports := net.ports.insert h { p with sending := true } } else net) := by
  unfold startUdpSend
  rw [hfind]
  cases ok <;> rfl

theorem startUdpRecv_eq {h : Nat} (inbound : EndpointId) (ok : Bool) (hfind : net.find handle = .ok (h, p)) :
    net.startUdpRecv handle inbound ok = .ok (ok,
      if ok then { net with ports := net.ports.insert h { p with inbound := some inbound } } else net) := by
  unfold startUdpRecv
  rw [hfind]
  cases ok <;> rfl

/-- `AddEndpoint` changes the pipeline slot at most, and adds the endpoint if it succeeds. -/
theorem addEndpoint_spec {pipeline : PipelineLoop}
    (kind : Kind) (iface : Interface) (created completed : Bool) (hfind : pipeline.find handle = .ok (k, s))
    (hs : pipeline.slots.get k = some s) :
    Yields (pipeline.addEndpoint kind handle iface created completed) fun r =>
      r.2.nextSlot = pipeline.nextSlot ∧
      ∃ s', r.2.slots.get = update pipeline.slots.get k (some s') ∧
        (r.1 = none ∨ r.1 = some ⟨k, iface⟩ ∧ iface ∉ s.endpoints ∧ s' = ⟨s.endpoints ++ [iface]⟩) := by
  have hsame : pipeline.slots.get = update pipeline.slots.get k (some s) := by
    rw [← hs, update_eq_self]
  have hadded : get (pipeline.slots.insert k { s with endpoints := s.endpoints ++ [iface] }) =
      update pipeline.slots.get k (some ⟨s.endpoints ++ [iface]⟩) := get_insert _ _ _
  unfold PipelineLoop.addEndpoint
  refine bind ⟨_, hfind, rfl⟩ ?_
  rintro _ rfl
  dsimp only
  split
  · exact .pure ⟨rfl, s, hsame, .inl rfl⟩
  · rename_i hc
    simp only [Bool.or_eq_true, not_or, List.contains_iff_mem] at hc
    split
    · exact .pure ⟨rfl, _, hadded, .inr ⟨rfl, hc.1.2, rfl⟩⟩
    · cases kind with
      | receiver => exact .pure ⟨rfl, s, hsame, .inl rfl⟩
      | sender => exact .pure ⟨rfl, _, hadded, .inl rfl⟩

theorem find_port (h : Backed loops slot) (hk : (slot.ports i).handle = some k) :
    ∃ p, loops.net.ports.get k = some p ∧ loops.net.find (slot.ports i).handle = .ok (k, p) := by
  obtain ⟨p, hp⟩ := h.ports i k hk
  exact ⟨p, hp, by simp [find, hk, hp]⟩

theorem find_slot (h : Backed loops slot) (hk : slot.handle = some k) :
    ∃ s, loops.pipeline.slots.get k = some s ∧ loops.pipeline.find slot.handle = .ok (k, s) := by
  obtain ⟨s, hs⟩ := h.handle k hk
  exact ⟨s, hs, by simp [PipelineLoop.find, hk, hs]⟩

end Tasks

section Cleanup

variable {slot : Slot} {loops : Loops}

/-- What `cleanup_slot_` leaves. -/
structure Cleaned (slot : Slot) (loops : Loops) (slot' : Slot) (loops' : Loops) : Prop where
  handle : slot'.handle = none
  ports : ∀ i, (slot'.ports i).handle = none
  removed : ∀ h, slot.Holds h → loops'.net.ports.get h = none
  others : ∀ h, ¬ slot.Holds h → loops'.net.ports.get h = loops.net.ports.get h
  deleted : ∀ h, slot.handle = some h → loops'.pipeline.slots.get h = none
  kept : ∀ h, slot.handle ≠ some h → loops'.pipeline.slots.get h = loops.pipeline.slots.get h
  nextPort : loops'.net.nextPort = loops.net.nextPort
  nextSlot : loops'.pipeline.nextSlot = loops.pipeline.nextSlot

theorem removePorts_spec (is : List Interface) : ∀ {slot : Slot} {net : NetworkLoop},
      (∀ i h, (slot.ports i).handle = some h → ∃ p, net.ports.get h = some p) →
      (∀ i j h, (slot.ports i).handle = some h → (slot.ports j).handle = some h → i = j) →
      Yields (removePorts is slot net) fun r =>
        r.1.handle = slot.handle ∧ r.1.broken = slot.broken ∧ r.2.nextPort = net.nextPort ∧
        (∀ i, (r.1.ports i).handle = if i ∈ is then none else (slot.ports i).handle) ∧
        ∀ h, r.2.ports.get h = if ∃ i ∈ is, (slot.ports i).handle = some h then none else net.ports.get h := by
  induction is with
  | nil =>
    intro slot net _ _
    exact .pure ⟨rfl, rfl, rfl, fun i => by simp, by simp⟩
  | cons i is ih =>
    intro slot net hopen hapart
    unfold removePorts
    split
    case isFalse hnone =>
      have hi : (slot.ports i).handle = none := by simpa using hnone
      refine (ih hopen hapart).mono fun r ⟨h1, h2, h3, h4, h5⟩ => ⟨h1, h2, h3, fun j => ?_, fun h => ?_⟩
      · rw [h4 j]
        by_cases hj : j = i
        · subst hj
          simp [hi]
        · simp [hj]
      · rw [h5 h]
        simp [hi]
    case isTrue hsome =>
      obtain ⟨k, hk⟩ := isSome_iff_exists.mp hsome
      obtain ⟨p, hp⟩ := hopen i k hk
      have hremove : net.removePort (slot.ports i).handle = .ok { net with ports := net.ports.erase k } := by
        simp only [NetworkLoop.removePort, NetworkLoop.find, hk, hp]
        rfl
      refine Yields.bind ⟨_, hremove, rfl⟩ ?_
      rintro _ rfl
      -- the rest of the loop finds the other ports as they were
      have hother : ∀ j h, ((slot.setPort i { slot.ports i with handle := none }).ports j).handle = some h ↔
          (slot.ports j).handle = some h ∧ h ≠ k := by
        intro j h
        rw [setPort_ports]
        split
        · next hj =>
          refine ⟨nofun, fun hh => ?_⟩
          rw [hj, hk] at hh
          exact absurd (Option.some.inj hh.1).symm hh.2
        · next hj =>
          refine ⟨fun hh => ⟨hh, ?_⟩, And.left⟩
          rintro rfl
          exact hj (hapart j i h hh hk)
      refine (ih (fun j h hj => ?_) fun j j' h hj hj' => ?_).mono fun r ⟨h1, h2, h3, h4, h5⟩ =>
        ⟨h1, h2, h3, fun j => ?_, fun h => ?_⟩
      · obtain ⟨hj, hne⟩ := (hother j h).mp hj
        rw [get_erase, update_of_ne hne]
        exact hopen j h hj
      · exact hapart j j' h ((hother j h).mp hj).1 ((hother j' h).mp hj').1
      · rw [h4 j, setPort_ports]
        by_cases hj : j = i
        · simp [hj]
        · simp [hj]
      · rw [h5 h, get_erase]
        by_cases hhk : h = k
        · simp [hhk, hk]
        · simp only [hother, update_of_ne hhk]
          simp [hk, hhk, Ne.symm hhk]

theorem removeSlot_spec {pipeline : PipelineLoop}
    (hslot : ∀ h, slot.handle = some h → ∃ s, pipeline.slots.get h = some s) :
    Yields (removeSlot slot pipeline) fun r =>
      r.1 = { slot with handle := none } ∧ r.2.nextSlot = pipeline.nextSlot ∧
      (∀ h, slot.handle = some h → r.2.slots.get h = none) ∧
      (∀ h, slot.handle ≠ some h → r.2.slots.get h = pipeline.slots.get h) := by
  unfold removeSlot
  cases hh : slot.handle with
  | none =>
    refine .pure ⟨?_, rfl, nofun, fun _ _ => rfl⟩
    cases slot
    simp_all
  | some k =>
    obtain ⟨s, hs⟩ := hslot k hh
    have hdelete : pipeline.deleteSlot (some k) =
        .ok { pipeline with slots := pipeline.slots.erase k, tasks := pipeline.tasks + 1 } := by
      simp only [PipelineLoop.deleteSlot, PipelineLoop.find, hs]
      rfl
    simp only [isSome_some, if_true]
    refine bind ⟨_, hdelete, rfl⟩ ?_
    rintro _ rfl
    refine .pure ⟨rfl, rfl, ?_, ?_⟩
    · rintro h hk
      cases hk
      simp only [get_erase, update_self]
    · intro h hne
      simp only [get_erase]
      exact update_of_ne (fun he => hne (by rw [he])) _ _

section
variable {slot' : Slot} {loops' : Loops} (h : Cleaned slot loops slot' loops')
include h

theorem Cleaned.effect : Effect slot loops slot' loops' where
  net k hk _ := h.others k hk
  pipeline := h.kept
  handle k hk := by rw [h.handle] at hk; cases hk
  holds k hk := by
    obtain ⟨i, hi⟩ := hk
    rw [h.ports i] at hi
    cases hi
  nextPort := Nat.le_of_eq h.nextPort.symm
  nextSlot := h.nextSlot

theorem Cleaned.backed (hb : Backed loops slot) : Backed loops' slot' where
  handle k hk := by rw [h.handle] at hk; cases hk
  ports i k hk := by rw [h.ports i] at hk; cases hk
  apart i j k hi := by rw [h.ports i] at hi; cases hi
  fresh k p hk := by
    by_cases hh : slot.Holds k
    · rw [h.removed k hh] at hk
      cases hk
    · rw [h.others k hh] at hk
      rw [h.nextPort]
      exact hb.fresh k p hk

end

theorem mem_all (i : Interface) : i ∈ Interface.all := by cases i <;> decide

theorem cleanupSlot_spec (kind : Kind) (h : Backed loops slot) : Yields (cleanupSlot kind slot loops) fun r =>
      Cleaned slot loops r.1 r.2 ∧ r.1.broken = slot.broken := by
  cases kind with
  | receiver =>
    refine (removePorts_spec Interface.all h.ports h.apart).bind ?_
    rintro ⟨slot1, net⟩ ⟨h1, h2, h3, h4, h5⟩
    have hslot : ∀ k, slot1.handle = some k → ∃ s, loops.pipeline.slots.get k = some s :=
      fun k hk => h.handle k (h1 ▸ hk)
    refine (removeSlot_spec hslot).bind ?_
    rintro ⟨slot2, pipeline⟩ ⟨rfl, h7, h8, h9⟩
    refine .pure ⟨⟨rfl, fun i => ?_, ?_, ?_, fun k hk => h8 k (h1 ▸ hk), fun k hk => h9 k (h1 ▸ hk), h3, h7⟩, h2⟩
    · rw [h4 i, if_pos (mem_all i)]
    · rintro k ⟨i, hk⟩
      rw [h5 k, if_pos ⟨i, mem_all i, hk⟩]
    · intro k hk
      rw [h5 k, if_neg fun ⟨i, _, hi⟩ => hk ⟨i, hi⟩]
  | sender =>
    refine (removeSlot_spec h.handle).bind ?_
    rintro ⟨slot1, pipeline⟩ ⟨rfl, h7, h8, h9⟩
    refine bind (P := fun r => _) (removePorts_spec Interface.all h.ports h.apart) ?_
    rintro ⟨slot2, net⟩ ⟨h1, h2, h3, h4, h5⟩
    refine .pure ⟨⟨h1, fun i => ?_, ?_, ?_, h8, h9, h3, h7⟩, h2⟩
    · rw [h4 i, if_pos (mem_all i)]
    · rintro k ⟨i, hk⟩
      rw [h5 k, if_pos ⟨i, mem_all i, hk⟩]
    · intro k hk
      rw [h5 k, if_neg fun ⟨i, _, hi⟩ => hk ⟨i, hi⟩]

structure Broken (slot : Slot) : Prop where
  broken : slot.broken = true
  handle : slot.handle = none
  ports : ∀ i, (slot.ports i).handle = none

theorem failSlot_spec (kind : Kind) (h : Backed loops slot) : Yields (failSlot kind slot loops) fun r =>
      r.1 = false ∧ Broken r.2.1 ∧ Cleaned slot loops r.2.1 r.2.2 := by
  have hb : Backed loops { slot with broken := true } := ⟨h.handle, h.ports, h.apart, h.fresh⟩
  refine (cleanupSlot_spec kind hb).bind ?_
  rintro ⟨slot', loops'⟩ ⟨hc, hbroken⟩
  exact .pure ⟨rfl, ⟨hbroken, hc.handle, hc.ports⟩,
    hc.handle, hc.ports, hc.removed, hc.others, hc.deleted, hc.kept, hc.nextPort, hc.nextSlot⟩

theorem failSlot_setPort {i : Interface} {port : Port} (kind : Kind) (h : Backed loops slot)
    (hp : port.handle = (slot.ports i).handle) :
    Yields (failSlot kind (slot.setPort i port) loops) fun r =>
      r.1 = false ∧ Broken r.2.1 ∧ Cleaned slot loops r.2.1 r.2.2 := by
  have hholds : ∀ k, (slot.setPort i port).Holds k ↔ slot.Holds k :=
    fun k => exists_congr fun j => by rw [setPort_same hp j]
  refine (failSlot_spec kind (h.setPort hp)).mono ?_
  rintro r ⟨hr, hbroken, hc⟩
  exact ⟨hr, hbroken, hc.handle, hc.ports, fun k hk => hc.removed k ((hholds k).mpr hk),
    fun k hk => hc.others k (mt (hholds k).mp hk), hc.deleted, hc.kept, hc.nextPort, hc.nextSlot⟩

structure Done (slot : Slot) (loops : Loops) (r : Bool × Slot × Loops) : Prop where
  effect : Effect slot loops r.2.1 r.2.2
  backed : Backed r.2.2 r.2.1
  succeeded : r.1 = true → r.2.1.broken = false ∧ r.2.1.handle = slot.handle
  failed : r.1 = false → Broken r.2.1

variable {r : Bool × Slot × Loops}

theorem Done.after {slot1 : Slot} {loops1 : Loops} (h : Done slot1 loops1 r)
    (heffect : Effect slot loops slot1 loops1) (hhandle : slot1.handle = slot.handle) : Done slot loops r :=
  ⟨heffect.trans h.effect, h.backed, fun hr => ⟨(h.succeeded hr).1, (h.succeeded hr).2.trans hhandle⟩, h.failed⟩

theorem failSlot_done (kind : Kind) (h : Backed loops slot) : Yields (failSlot kind slot loops) (Done slot loops) := by
  refine (failSlot_spec kind h).mono ?_
  rintro r ⟨hr, hbroken, hc⟩
  exact ⟨hc.effect, hc.backed h, by simp [hr], fun _ => hbroken⟩

structure Fit (loops : Loops) (slot : Slot) : Prop where
  backed : Backed loops slot
  broken : slot.broken = true → Broken slot
  handle : slot.broken = false → ∃ k, slot.handle = some k

theorem Fit.pipelineSlot (h : Fit loops slot) (hnot : slot.broken = false) :
    ∃ k s, slot.handle = some k ∧ loops.pipeline.slots.get k = some s := by
  obtain ⟨k, hk⟩ := h.handle hnot
  obtain ⟨s, hs⟩ := h.backed.handle k hk
  exact ⟨k, s, hk, hs⟩

theorem Fit.done_of_broken (h : Fit loops slot) (hb : slot.broken = true) : Done slot loops (false, slot, loops) :=
  ⟨.refl _ _, h.backed, nofun, fun _ => h.broken hb⟩

theorem Done.fit (h : Done slot loops r) (hfit : Fit loops slot) (hnot : slot.broken = false) : Fit r.2.2 r.2.1 where
  backed := h.backed
  broken hb := by
    cases hr : r.1 with
    | false => exact h.failed hr
    | true =>
      rw [(h.succeeded hr).1] at hb
      cases hb
  handle hb := by
    cases hr : r.1 with
    | false =>
      rw [(h.failed hr).broken] at hb
      cases hb
    | true =>
      rw [(h.succeeded hr).2]
      exact hfit.handle hnot

theorem configureSlot_done (kind : Kind) (iface : Interface) (config : UdpConfig) (h : Fit loops slot) :
    Yields (configureSlot kind slot iface config loops) (Done slot loops) := by
  unfold configureSlot
  split
  case isTrue hb => exact .pure (h.done_of_broken hb)
  split
  case isTrue => exact failSlot_done kind h.backed
  case isFalse hb _ =>
    exact .pure ⟨.setPort rfl, h.backed.setPort rfl, fun _ => ⟨by simpa using hb, rfl⟩, nofun⟩

end Cleanup

/-! ## Receiver -/

section Receiver

variable {slot : Slot} {loops : Loops} {iface : Interface} {k : Nat}

/-- How `bind` ends once it has opened a port. -/
inductive Bound (k : Nat) (slot : Slot) (loops : Loops) (iface : Interface) :
    Bool × Slot × Loops → Prop where
  | failed {slot₁ slot' : Slot} {loops₁ loops' : Loops} {p : UdpPort} {s : PipelineSlot}
      (hopened : Opened k slot loops iface slot₁ loops₁ p s) (hbroken : Broken slot')
      (hcleaned : Cleaned slot₁ loops₁ slot' loops') : Bound k slot loops iface (false, slot', loops')
  | succeeded {slot' : Slot} {loops' : Loops} {p : UdpPort} {s₀ : PipelineSlot}
      (hs : loops.pipeline.slots.get k = some s₀) (hnew : iface ∉ s₀.endpoints)
      (hopened : Opened k slot loops iface slot' loops' p ⟨s₀.endpoints ++ [iface]⟩)
      (hp : p.inbound = some ⟨k, iface⟩) : Bound k slot loops iface (true, slot', loops')

variable {slot1 : Slot} {loops1 : Loops} {p : UdpPort} {s : PipelineSlot}

theorem Bound.of_fail (hb : Backed loops slot) (hopened : Opened k slot loops iface slot1 loops1 p s) :
    Yields (failSlot .receiver slot1 loops1) (Bound k slot loops iface) := by
  refine (failSlot_spec .receiver (hopened.backed hb)).mono ?_
  rintro ⟨ok, slot', loops'⟩ ⟨rfl, hbroken, hcleaned⟩
  exact .failed hopened hbroken hcleaned

section
variable (h : Opened k slot loops iface slot1 loops1 p s)
include h

theorem Opened.setUdpPort (q : UdpPort) : Opened k slot loops iface slot1 { loops1 with net := { loops1.net with
      ports := loops1.net.ports.insert loops.net.nextPort q } } q s :=
  ⟨h.handle, h.broken, h.ports, by rw [get_insert, h.net, update_idem], h.nextPort, h.pipeline, h.nextSlot⟩

theorem Opened.find_port : loops1.net.find (slot1.ports iface).handle = .ok (loops.net.nextPort, p) := by
  have hp : (slot1.ports iface).handle = some loops.net.nextPort := by rw [h.ports, if_pos rfl]
  have hget : loops1.net.ports.get loops.net.nextPort = some p := by rw [h.net, update_self]
  simp only [find, hp, hget]

theorem Opened.setSlot {s' : PipelineSlot}
    {pipeline : PipelineLoop} (hslots : pipeline.slots.get = update loops1.pipeline.slots.get k (some s'))
    (hnext : pipeline.nextSlot = loops1.pipeline.nextSlot) :
    Opened k slot loops iface slot1 { loops1 with pipeline } p s' :=
  ⟨h.handle, h.broken, h.ports, h.net, h.nextPort, by rw [hslots, h.pipeline, update_idem], hnext.trans h.nextSlot⟩

end

section
variable {slot1 : Slot} {loops1 : Loops} {p : UdpPort} {s : PipelineSlot} (luck : BindLuck)
  (hb : Backed loops slot) (hk : slot.handle = some k) (hs : loops.pipeline.slots.get k = some s)
  (h : Opened k slot loops iface slot1 loops1 p s)
include luck hb hk hs h

theorem bindEndpoint_spec : Yields (bindEndpoint slot1 iface luck loops1) (Bound k slot loops iface) := by
  have hget : loops1.pipeline.slots.get k = some s := by rw [h.pipeline, update_self]
  have hfind : loops1.pipeline.find slot1.handle = .ok (k, s) := by
    simp only [PipelineLoop.find, h.handle, hk, hget]
  refine (addEndpoint_spec .receiver iface _ _ hfind hget).bind ?_
  rintro ⟨endpoint, pipeline⟩ ⟨hnext, s', hslots, hend⟩
  have hset := h.setSlot hslots hnext
  rcases hend with rfl | ⟨rfl, hnew, rfl⟩
  · exact Bound.of_fail hb hset
  · refine bind ⟨_, startUdpRecv_eq _ luck.recvStarted hset.find_port, rfl⟩ ?_
    rintro _ rfl
    cases luck.recvStarted with
    | true => exact .pure (.succeeded hs hnew (hset.setUdpPort { p with inbound := some ⟨k, iface⟩ }) rfl)
    | false => exact Bound.of_fail hb hset

theorem bindPort_spec : Yields (bindPort slot1 iface luck loops1) (Bound k slot loops iface) := by
  unfold bindPort
  split
  case isFalse => exact bindEndpoint_spec luck hb hk hs h
  case isTrue =>
    refine bind ⟨_, startUdpSend_eq luck.sendStarted h.find_port, rfl⟩ ?_
    rintro _ rfl
    cases luck.sendStarted with
    | true => exact bindEndpoint_spec luck hb hk hs (h.setUdpPort _)
    | false => exact Bound.of_fail hb h

end

/-- `bind` gets as far as opening a port. -/
def Receiver.opens (used : Interface → Option Protocol) (iface : Interface) (uri : EndpointUri)
    (luck : BindLuck) : Bool :=
  uri.verified && compatible used iface uri && luck.resolved.isSome && luck.bound.isSome

/-- `bind` of a slot that is not broken: if it opens a port it goes on to `Bound`, else it breaks the slot
as it is. -/
theorem bindSlot_spec (used : Interface → Option Protocol) (iface : Interface) (uri : EndpointUri)
    (luck : BindLuck) (hb : Backed loops slot) (hnot : slot.broken = false) (hk : slot.handle = some k)
    (hs : loops.pipeline.slots.get k = some s) :
    Yields (bindSlot used slot iface uri luck loops) fun r =>
      if opens used iface uri luck then Bound k slot loops iface r
      else r.1 = false ∧ Broken r.2.1 ∧ Cleaned slot loops r.2.1 r.2.2 := by
  unfold bindSlot opens
  rw [if_neg (by simp [hnot])]
  cases hv : uri.verified with
  | false => exact failSlot_spec .receiver hb
  | true =>
    cases hc : compatible used iface uri with
    | false => exact failSlot_spec .receiver hb
    | true =>
      cases hr : luck.resolved with
      | none => exact failSlot_spec .receiver hb
      | some address =>
        cases ho : luck.bound with
        | none => exact failSlot_setPort .receiver hb rfl
        | some bound =>
          refine bindPort_spec (p := {}) luck hb hk hs ?_
          rw [setPort_setPort]
          exact opened_addUdpPort bound hs rfl

theorem Bound.done {r : Bool × Slot × Loops} (h : Bound k slot loops iface r) (hb : Backed loops slot)
    (hnot : slot.broken = false) (hk : slot.handle = some k) : Done slot loops r := by
  cases h with
  | failed hopened hbroken hcleaned =>
    exact ⟨(hopened.effect hk).trans hcleaned.effect, hcleaned.backed (hopened.backed hb), nofun, fun _ => hbroken⟩
  | succeeded _ _ hopened _ =>
    exact ⟨hopened.effect hk, hopened.backed hb, fun _ => ⟨hopened.broken.trans hnot, hopened.handle⟩, nofun⟩

theorem bindSlot_done {used : Interface → Option Protocol} {uri : EndpointUri} {luck : BindLuck}
    (h : Fit loops slot) : Yields (bindSlot used slot iface uri luck loops) (Done slot loops) := by
  cases hb : slot.broken with
  | true =>
    unfold bindSlot
    rw [if_pos hb]
    exact .pure (h.done_of_broken hb)
  | false =>
    obtain ⟨k, s, hk, hs⟩ := h.pipelineSlot hb
    refine (bindSlot_spec used iface uri luck h.backed hb hk hs).mono ?_
    intro r hr
    split at hr
    · exact hr.done h.backed hb hk
    · obtain ⟨hr, hbroken, hc⟩ := hr
      exact ⟨hc.effect, hc.backed h.backed, by simp [hr], fun _ => hbroken⟩

theorem reportPort_ok (slot : Slot) (iface : Interface) (uri : EndpointUri) :
    ∃ uri', reportPort slot iface uri = .ok uri' := by
  unfold reportPort
  split
  · cases (slot.ports iface).config.bindAddress with
    | none => exact ⟨_, rfl⟩
    | some address =>
      have hport : address.port.toNat < 65536 := address.port.toNat_lt
      have hset : uri.setPort address.port.toNat = some { uri with port := address.port.toNat } := by
        unfold EndpointUri.setPort
        rw [if_neg (by omega), if_neg]
        simp only [Bool.or_eq_true, decide_eq_true_eq]
        omega
      simp only [hset]
      exact ⟨_, rfl⟩
  · exact ⟨_, rfl⟩

end Receiver

/-! ## Sender -/

section Sender

variable {slot : Slot} {loops : Loops} {iface selected : Interface}

section
variable {k h : Nat} {s : PipelineSlot} (luck : ConnectLuck) (hb : Backed loops slot)
  (hnot : slot.broken = false) (hk : slot.handle = some k)
  (hs : loops.pipeline.slots.get k = some s) (hp : (slot.ports selected).handle = some h)
include luck hb hnot hk hs hp

theorem connectEndpoint_done : Yields (connectEndpoint slot iface selected luck loops) (Done slot loops) := by
  obtain ⟨s', hs', hfind⟩ := find_slot hb hk
  refine (addEndpoint_spec .sender iface _ _ hfind hs').bind ?_
  rintro ⟨endpoint, pipeline⟩ ⟨hnext, s1, hslots, hend⟩
  -- the pipeline slot has changed, and nothing else
  have heffect : Effect slot loops slot { loops with pipeline } := by
    refine ⟨fun _ _ _ => rfl, ?_, fun _ => id, fun _ => .inl, Nat.le_refl _, hnext⟩
    intro k' hk'
    simp only [hslots]
    rw [update_of_ne]
    rintro rfl
    exact hk' hk
  have hbacked : Backed { loops with pipeline } slot := by
    refine ⟨?_, hb.ports, hb.apart, hb.fresh⟩
    intro k' hk'
    simp only [hslots, update_apply]
    split
    · exact ⟨s1, rfl⟩
    · exact hb.handle k' hk'
  rcases hend with rfl | ⟨rfl, -, -⟩
  · exact (failSlot_done .sender hbacked).mono fun r hr => hr.after heffect rfl
  dsimp only
  split
  case isFalse => exact .pure ⟨heffect, hbacked, fun _ => ⟨hnot, rfl⟩, nofun⟩
  case isTrue =>
    obtain ⟨p, -, hfindp⟩ := find_port hbacked hp
    refine bind ⟨_, startUdpRecv_eq _ luck.recvStarted hfindp, rfl⟩ ?_
    rintro _ rfl
    cases luck.recvStarted with
    | true =>
      obtain ⟨hb', he'⟩ := hbacked.setUdpPort (p := { p with inbound := some ⟨k, iface⟩ }) hp
      exact .pure ⟨heffect.trans he', hb', fun _ => ⟨hnot, rfl⟩, nofun⟩
    | false => exact (failSlot_done .sender hbacked).mono fun r hr => hr.after heffect rfl

theorem connectPort_done : Yields (connectPort slot iface selected luck loops) (Done slot loops) := by
  unfold connectPort
  dsimp only
  split
  case isTrue => exact connectEndpoint_done luck hb hnot hk hs hp
  case isFalse =>
    obtain ⟨p, -, hfind⟩ := find_port hb hp
    refine bind ⟨_, startUdpSend_eq luck.sendStarted hfind, rfl⟩ ?_
    rintro _ rfl
    cases luck.sendStarted with
    | false => exact failSlot_done .sender hb
    | true =>
      obtain ⟨hb', he'⟩ := hb.setUdpPort (p := { p with sending := true }) hp
      have hp' : ((slot.setPort selected
          { slot.ports selected with outboundWriter := true }).ports selected).handle = some h := by
        rw [setPort_ports, if_pos rfl]
        exact hp
      have hback : Backed _ (slot.setPort selected { slot.ports selected with outboundWriter := true }) :=
        hb'.setPort rfl
      have heffect : Effect slot loops (slot.setPort selected { slot.ports selected with outboundWriter := true }) _ :=
        he'.trans (.setPort rfl)
      exact (connectEndpoint_done luck hback hnot hk hs hp').mono fun r hr => hr.after heffect rfl

end

theorem setupOutgoingPort_handle {port port' : Port} {family : AddrFamily}
    (h : setupOutgoingPort port family = some port') : port'.handle = port.handle := by
  unfold setupOutgoingPort at h
  split at h
  · split at h
    · cases h
    · split at h <;> cases h <;> rfl
  · split at h <;> cases h <;> rfl

theorem connectSlot_done {used : Interface → Option Protocol} {uri : EndpointUri} {luck : ConnectLuck}
    (h : Fit loops slot) : Yields (connectSlot used slot iface uri luck loops) (Done slot loops) := by
  unfold connectSlot
  split
  case isTrue hb => exact .pure (h.done_of_broken hb)
  rename_i hb
  have hnot : slot.broken = false := by simpa using hb
  obtain ⟨k, s, hk, hs⟩ := h.pipelineSlot hnot
  split
  · exact failSlot_done .sender h.backed
  split
  · exact failSlot_done .sender h.backed
  split
  · exact failSlot_done .sender h.backed
  rename_i address _
  dsimp only
  generalize selectOutgoingPort slot iface address.family = selected
  split
  · exact failSlot_done .sender h.backed
  rename_i port hsetup
  have hsame := setupOutgoingPort_handle hsetup
  have hback := h.backed.setPort hsame
  split
  case isTrue hsome =>
    obtain ⟨h', hh'⟩ := isSome_iff_exists.mp hsome
    refine (connectPort_done luck hback hnot hk hs (h := h') ?_).mono fun r hr => hr.after (.setPort hsame) rfl
    rw [setPort_ports, if_pos rfl]
    exact hh'
  case isFalse =>
    cases luck.bound with
    | none => exact (failSlot_done .sender hback).mono fun r hr => hr.after (.setPort hsame) rfl
    | some bound =>
      have hopened : Opened k slot loops selected (slot.setPort selected { port with
            config := { port.config with bindAddress := some bound }
            handle := some loops.net.nextPort })
          { loops with net := (loops.net.addUdpPort (some bound)).2 } {} s :=
        opened_addUdpPort bound hs rfl
      have hp := (hopened.ports selected).trans (if_pos rfl)
      exact (connectPort_done luck (hopened.backed h.backed) hnot hk hs hp).mono fun r hr =>
        hr.after (hopened.effect hk) rfl

end Sender

/-! ## All slots of a node -/

/-- Between two calls every slot is as it should be, and no two share a port or a pipeline slot. -/
structure Safe (node : State) : Prop where
  fit : ∀ a slot, node.slots.get a = some slot → Fit node.loops slot
  ports : ∀ a b slot slot' h, node.slots.get a = some slot → node.slots.get b = some slot' →
    slot.Holds h → slot'.Holds h → a = b
  handles : ∀ a b slot slot' h, node.slots.get a = some slot → node.slots.get b = some slot' →
    slot.handle = some h → slot'.handle = some h → a = b
  fresh : ∀ h p, node.loops.net.ports.get h = some p → h < node.loops.net.nextPort
  slots : ∀ h s, node.loops.pipeline.slots.get h = some s → h < node.loops.pipeline.nextSlot

theorem Safe.initial : Safe {} where
  fit _ _ := nofun
  ports _ _ _ _ _ := nofun
  handles _ _ _ _ _ := nofun
  fresh _ _ := nofun
  slots _ _ := nofun

section Safe

variable {node : State} {index : Nat} {slot : Slot} {loops' : Loops} {slot' : Slot}

section
variable (h : Safe node)
include h

theorem Safe.holds_lt {a : Nat} {t : Slot} {k : Nat} (ht : node.slots.get a = some t)
    (hk : t.Holds k) : k < node.loops.net.nextPort := by
  obtain ⟨i, hi⟩ := hk
  obtain ⟨p, hp⟩ := (h.fit a t ht).backed.ports i k hi
  exact h.fresh k p hp

section
variable (hget : node.slots.get index = some slot) (heffect : Effect slot node.loops slot' loops')
include hget heffect

theorem Safe.fit_other (hfresh : ∀ k p, loops'.net.ports.get k = some p → k < loops'.net.nextPort) {a : Nat}
    {t : Slot} (ha : a ≠ index) (ht : node.slots.get a = some t) : Fit loops' t := by
  have hfit := h.fit a t ht
  refine ⟨⟨?_, ?_, hfit.backed.apart, hfresh⟩, hfit.broken, hfit.handle⟩
  · intro k hk
    rw [heffect.pipeline k fun hk' => ha (h.handles a index t slot k ht hget hk hk')]
    exact hfit.backed.handle k hk
  · intro i k hk
    have hno : ¬ slot.Holds k := fun hk' => ha (h.ports a index t slot k ht hget ⟨i, hk⟩ hk')
    rw [heffect.net k hno (h.holds_lt ht ⟨i, hk⟩)]
    exact hfit.backed.ports i k hk

theorem Safe.slots_lt {k : Nat} {s : PipelineSlot}
    (hk : loops'.pipeline.slots.get k = some s) : k < loops'.pipeline.nextSlot := by
  rw [heffect.nextSlot]
  by_cases hh : slot.handle = some k
  · obtain ⟨s', hs'⟩ := (h.fit index slot hget).backed.handle k hh
    exact h.slots k s' hs'
  · rw [heffect.pipeline k hh] at hk
    exact h.slots k s hk

theorem Safe.put (hfit : Fit loops' slot') : Safe (node.putSlot index slot' loops') := by
  have hslots : ∀ a t, (node.putSlot index slot' loops').slots.get a = some t →
      (a = index ∧ t = slot') ∨ (a ≠ index ∧ node.slots.get a = some t) := by
    intro a t ha
    simp only [State.putSlot, NodeMap.get_insert, update_apply] at ha
    split at ha
    · exact .inl ⟨‹_›, (some.inj ha).symm⟩
    · exact .inr ⟨‹_›, ha⟩
  have hother : ∀ b t k, b ≠ index → node.slots.get b = some t → t.Holds k → ¬ slot'.Holds k := by
    intro b t k hb ht hk hk'
    rcases heffect.holds k hk' with hk' | hk'
    · exact hb (h.ports b index t slot k ht hget hk hk')
    · have := h.holds_lt ht hk
      omega
  refine ⟨?_, ?_, ?_, hfit.backed.fresh, fun k s hk => h.slots_lt hget heffect hk⟩
  · intro a t ha
    rcases hslots a t ha with ⟨-, rfl⟩ | ⟨hne, ht⟩
    · exact hfit
    · exact h.fit_other hget heffect hfit.backed.fresh hne ht
  · intro a b t t' k ha hb hk hk'
    rcases hslots a t ha with ⟨rfl, rfl⟩ | ⟨hne, ht⟩ <;> rcases hslots b t' hb with ⟨rfl, rfl⟩ | ⟨hne', ht'⟩
    · rfl
    · exact absurd hk (hother b t' k hne' ht' hk')
    · exact absurd hk' (hother a t k hne ht hk)
    · exact h.ports a b t t' k ht ht' hk hk'
  · intro a b t t' k ha hb hk hk'
    rcases hslots a t ha with ⟨rfl, rfl⟩ | ⟨hne, ht⟩ <;> rcases hslots b t' hb with ⟨rfl, rfl⟩ | ⟨hne', ht'⟩
    · rfl
    · exact (h.handles b a t' slot k ht' hget hk' (heffect.handle k hk)).symm
    · exact h.handles a b t slot k ht hget hk (heffect.handle k hk')
    · exact h.handles a b t t' k ht ht' hk hk'

end

theorem Safe.erase (hget : node.slots.get index = some slot) (hcleaned : Cleaned slot node.loops slot' loops') :
    Safe { node with slots := node.slots.erase index, loops := loops' } := by
  have hfresh := (hcleaned.backed (h.fit index slot hget).backed).fresh
  have hslots : ∀ a t, (node.slots.erase index).get a = some t → a ≠ index ∧ node.slots.get a = some t := by
    intro a t ha
    rw [NodeMap.get_erase, update_apply] at ha
    split at ha
    · cases ha
    · exact ⟨‹_›, ha⟩
  refine ⟨?_, ?_, ?_, hfresh, fun k s hk => h.slots_lt hget hcleaned.effect hk⟩
  · intro a t ha
    obtain ⟨hne, ht⟩ := hslots a t ha
    exact h.fit_other hget hcleaned.effect hfresh hne ht
  · intro a b t t' k ha hb
    exact h.ports a b t t' k (hslots a t ha).2 (hslots b t' hb).2
  · intro a b t t' k ha hb
    exact h.handles a b t t' k (hslots a t ha).2 (hslots b t' hb).2

end
end Safe

end Roc.Node
