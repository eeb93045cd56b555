import Mathlib.Data.Prod.Lex
import RocToolkit.Fec.ReaderInvariant

/-!
# RocToolkit.Fec.ReaderRuns

`fec::Reader` from call to call: the order in which it returns packets, what a second attempt to repair a block finds,
and when it starts.
-/

namespace Roc.Fec.Reader

open List

open Roc.Packet (blknumLt blknumLe diff16)

open Option

variable {E : Env} {R : BlockPacket → Prop} {r r' : Reader}

/-! ## Repairing -/

theorem symbols_returns_iff (block : List (Option BlockPacket)) (first : Nat) :
    (∃ l, symbols block first = .ok l) ↔ ∀ p, some p ∈ block → p.fec ≠ none := by
  induction block generalizing first with
  | nil => exact ⟨fun _ p hp => (by cases hp), fun _ => ⟨[], rfl⟩⟩
  | cons place rest ih =>
    cases place with
    | none => simpa [symbols] using ih (first + 1)
    | some packet =>
      cases hfec : packet.fec with
      | none => simp [symbols, hfec]
      | some fec =>
        simp only [symbols, hfec, mem_cons, some.injEq, forall_eq_or_imp, ne_eq, reduceCtorEq,
          not_false_eq_true, true_and]
        rw [← ih (first + 1)]
        constructor
        · rintro ⟨l, hl⟩
          obtain ⟨others, hothers, -⟩ := bind_eq_ok.mp hl
          exact ⟨others, hothers⟩
        · rintro ⟨others, hothers⟩
          exact ⟨_, by rw [hothers]; rfl⟩

def Restores (E : Env) (R : BlockPacket → Prop) : Prop :=
  ∀ attempt index buffer packet, parseRepairedPacket E attempt index buffer = some packet → R packet

variable {buffer : List UInt8} {i : Nat} {p : BlockPacket} {r1 r2 r3 : Reader}
  {output : Option Output} {code : StatusCode} {queue' queue : SortedQueue}
  {source repair : Arrivals} {outputs : List Output} {isAudio : UInt8 → Bool}

theorem parseRepairedPacket_restored {attempt index : Nat} {packet : BlockPacket}
    (h : parseRepairedPacket E attempt index buffer = some packet) : packet.restored = true := by
  unfold parseRepairedPacket at h
  split at h
  · cases h
  · obtain ⟨p, -, rfl⟩ := map_eq_some_iff.mp h
    rfl

/-- `try_repair_` gets to the decoder. -/
def Attempts (E : Env) (r : Reader) : Prop :=
  r.canRepair = true ∧ r.sourceBlockResized = true ∧ r.repairBlockResized = true ∧ r.payloadResized = true ∧
    E.begins r.attempts r.sourceBlock.length r.repairBlock.length r.payloadSize = true

/-- The reader after an attempt that was given `given`. -/
def repaired (E : Env) (r : Reader) (given : List (Nat × List UInt8)) : Reader :=
  { r with
    attempts := r.attempts + 1
    sourceBlock := r.sourceBlock.mapIdx (repairPlace E r.attempts given)
    canRepair := false }

theorem tryRepair_cases (r : Reader) :
    (¬ r.Attempts E ∧ ∃ r', r.tryRepair E = .ok r' ∧ ∃ alive attempts, r' = { r with alive, attempts } ∧
        (alive = true → r.alive = true)) ∨
      (r.Attempts E ∧ r.tryRepair E = (do
        let source ← symbols r.sourceBlock 0
        let repair ← symbols r.repairBlock r.sourceBlock.length
        .ok (r.repaired E (source ++ repair)))) := by
  unfold tryRepair Attempts
  split
  · next h => exact .inl ⟨fun ha => by simp [ha.1] at h, r, rfl, r.alive, r.attempts, rfl, id⟩
  · split
    · next h => exact .inl ⟨fun ha => by simp [ha.2.1, ha.2.2.1, ha.2.2.2.1] at h, r, rfl, r.alive, r.attempts, rfl, id⟩
    · next hcan hflags =>
      simp only [Bool.not_eq_true', Bool.not_eq_false, Bool.or_eq_true, not_or] at hcan hflags
      dsimp only
      split
      · next h =>
        exact .inl ⟨fun ha => by simp [ha.2.2.2.2] at h, _, rfl, false, r.attempts + 1, rfl, fun h => by cases h⟩
      · next h =>
        exact .inr ⟨⟨hcan, hflags.1.1, hflags.1.2, hflags.2, by simpa using h⟩, rfl⟩

structure SamePlace (r r' : Reader) : Prop where
  started : r'.started = r.started
  nextPacket : r'.nextPacket = r.nextPacket
  curSbn : r'.curSbn = r.curSbn
  blocks : r'.blocks = r.blocks
  sourceQueue : r'.sourceQueue = r.sourceQueue
  repairQueue : r'.repairQueue = r.repairQueue
  length : r'.sourceBlock.length = r.sourceBlock.length

theorem getElem?_repaired {given : List (Nat × List UInt8)}
    (hp : (r.repaired E given).sourceBlock[i]? = some (some p)) :
    r.sourceBlock[i]? = some (some p) ∨ (r.sourceBlock[i]? = some none ∧
      ∃ buffer, parseRepairedPacket E r.attempts i buffer = some p) := by
  have hp : (r.sourceBlock.mapIdx (repairPlace E r.attempts given))[i]? = some (some p) := hp
  rw [List.getElem?_mapIdx, map_eq_some_iff] at hp
  obtain ⟨place, hplace, heq⟩ := hp
  cases place with
  | some q =>
    cases heq
    exact .inl hplace
  | none =>
    obtain ⟨buffer, -, hparse⟩ := bind_eq_some_iff.mp heq
    exact .inr ⟨hplace, buffer, hparse⟩

theorem Inv.repaired (hinv : Inv R r) (hstarted : r.started = true) (hattempts : r.Attempts E)
    (hR : Restores E R) (given : List (Nat × List UInt8)) : Inv R (r.repaired E given) :=
  { hinv with
    source := fun i p hp => by
      rcases getElem?_repaired hp with hold | ⟨-, buffer, hparse⟩
      · exact (hinv.source i p hold).imp_left fun hplace => { hplace with }
      · exact .inr ⟨parseRepairedPacket_restored hparse, hR _ _ _ _ hparse⟩
    settled := fun _ => ⟨hattempts.2.1, hattempts.2.2.2.1⟩
    flags := hinv.flags
    unstarted := fun h => by rw [show r.started = false from h] at hstarted; cases hstarted
    cursor := fun h => by
      show r.nextPacket < (r.sourceBlock.mapIdx _).length
      rw [length_mapIdx]
      exact hinv.cursor h }

theorem tryRepair_spec (hinv : Inv R r) (hstarted : r.started = true) (hR : Restores E R)
    (heq : r.tryRepair E = .ok r') : Inv R r' ∧ SamePlace r r' := by
  rcases tryRepair_cases (E := E) r with ⟨-, r1, hok, alive, attempts, rfl, -⟩ | ⟨hattempts, hok⟩
  · cases heq.symm.trans hok
    exact ⟨{ hinv with
      source := fun i p hp => (hinv.source i p hp).imp_left fun hplace => { hplace with }
      flags := hinv.flags }, ⟨rfl, rfl, rfl, rfl, rfl, rfl, rfl⟩⟩
  · rw [hok] at heq
    obtain ⟨source, -, heq⟩ := bind_eq_ok.mp heq
    obtain ⟨repair, -, heq⟩ := bind_eq_ok.mp heq
    cases heq
    exact ⟨hinv.repaired hstarted hattempts hR _, ⟨rfl, rfl, rfl, rfl, rfl, rfl, length_mapIdx⟩⟩

theorem tryRepair_returns_iff (hinv : Inv R r) :
    (∃ r', r.tryRepair E = .ok r') ↔ (r.Attempts E → ∀ p, some p ∈ r.sourceBlock → p.fec ≠ none) := by
  rcases tryRepair_cases (E := E) r with ⟨hnot, r1, hok, -⟩ | ⟨hattempts, hok⟩
  · exact ⟨fun _ h => absurd h hnot, fun _ => ⟨r1, hok⟩⟩
  · rw [hok, ← symbols_returns_iff r.sourceBlock 0]
    constructor
    · rintro ⟨r', heq⟩ -
      obtain ⟨source, hsource, -⟩ := bind_eq_ok.mp heq
      exact ⟨source, hsource⟩
    · intro h
      obtain ⟨source, hsource⟩ := h hattempts
      obtain ⟨repair, hrepair⟩ := (symbols_returns_iff r.repairBlock r.sourceBlock.length).mpr fun p hp => by
        obtain ⟨fec, hfec, -⟩ := hinv.repair p hp
        simp [hfec]
      exact ⟨_, by rw [hsource, ok_bind, hrepair, ok_bind]⟩

/-! ## Order of packets -/

/-- The place that is read next: a block since the start, and an index in it. -/
def cursor (r : Reader) : ℕ ×ₗ ℕ := toLex (r.blocks, r.nextPacket)

def base (r : Reader) : UInt16 := r.curSbn - UInt16.ofNat r.blocks

/-- A packet of a block is the one that its number and its symbol id tell, if it was not restored. -/
def AtPosition (start : UInt16) (block index : Nat) (p : BlockPacket) : Prop :=
  p.restored = true ∨ ∃ fec, p.fec = some fec ∧ fec.sourceBlockNumber = start + UInt16.ofNat block ∧
    fec.encodingSymbolId = index

theorem Inv.atPosition (hinv : Inv R r) (hp : r.sourceBlock[i]? = some (some p)) : AtPosition r.base r.blocks i p := by
  rcases hinv.source i p hp with hplace | ⟨hrestored, -⟩
  · obtain ⟨fec, hfec, -, hsbn, hesi⟩ := hplace.fec
    refine .inr ⟨fec, hfec, ?_, hesi⟩
    rw [hsbn, base, UInt16.sub_add_cancel]
  · exact .inl hrestored

structure Moves (r r' : Reader) : Prop where
  started : r'.started = r.started
  base : r'.base = r.base
  le : r.cursor ≤ r'.cursor
  sourceQueue : r'.sourceQueue <+: r.sourceQueue
  repairQueue : r'.repairQueue <+: r.repairQueue

theorem Moves.refl (r : Reader) : Moves r r := ⟨rfl, rfl, le_refl _, prefix_refl _, prefix_refl _⟩

theorem Moves.trans (h1 : Moves r1 r2) (h2 : Moves r2 r3) : Moves r1 r3 :=
  ⟨h2.started.trans h1.started, h2.base.trans h1.base, h1.le.trans h2.le, h2.sourceQueue.trans h1.sourceQueue,
    h2.repairQueue.trans h1.repairQueue⟩

theorem Filled.cursor (h : Filled r r') : r'.cursor = r.cursor := by
  unfold Reader.cursor
  rw [h.blocks, h.nextPacket]

theorem Filled.moves (h : Filled r r') : Moves r r' where
  started := h.started
  base := by unfold Reader.base; rw [h.curSbn, h.blocks]
  le := h.cursor.ge
  sourceQueue := h.sourceQueue
  repairQueue := h.repairQueue

theorem SamePlace.moves (h : SamePlace r r') : Moves r r' where
  started := h.started
  base := by unfold Reader.base; rw [h.curSbn, h.blocks]
  le := by unfold Reader.cursor; rw [h.blocks, h.nextPacket]
  sourceQueue := h.sourceQueue ▸ prefix_refl _
  repairQueue := h.repairQueue ▸ prefix_refl _

theorem cursor_le (hi : r.nextPacket ≤ i) : r.cursor ≤ toLex (r.blocks, i) :=
  Prod.Lex.toLex_le_toLex.mpr (.inr ⟨rfl, hi⟩)

theorem lt_cursor_cleared (r : Reader) (i : Nat) : toLex (r.blocks, i) < r.cleared.cursor :=
  Prod.Lex.toLex_lt_toLex.mpr (.inl (Nat.lt_succ_self _))

theorem moves_cleared (r : Reader) : Moves r r.cleared where
  started := rfl
  base := by
    show r.curSbn + 1 - UInt16.ofNat (r.blocks + 1) = r.curSbn - UInt16.ofNat r.blocks
    rw [UInt16.ofNat_add]
    grind
  le := (lt_cursor_cleared r r.nextPacket).le
  sourceQueue := prefix_refl _
  repairQueue := prefix_refl _

theorem firstPresent_eq_some {pos : Nat} (l : List (Option BlockPacket))
    (h : firstPresent pos l = some (i, p)) : pos ≤ i ∧ l[i - pos]? = some (some p) := by
  induction l generalizing pos with
  | nil => cases h
  | cons place rest ih =>
    cases place with
    | some packet =>
      cases h
      exact ⟨le_refl _, by simp⟩
    | none =>
      obtain ⟨hle, hrest⟩ := ih h
      refine ⟨by omega, ?_⟩
      rw [show i - pos = (i - (pos + 1)) + 1 by omega]
      exact hrest

theorem firstPresent_getElem? {block : List (Option BlockPacket)} {pos : Nat}
    (h : firstPresent pos (block.drop pos) = some (i, p)) : pos ≤ i ∧ block[i]? = some (some p) := by
  obtain ⟨hle, hget⟩ := firstPresent_eq_some _ h
  rw [List.getElem?_drop, show pos + (i - pos) = i by omega] at hget
  exact ⟨hle, hget⟩

theorem advance_spec (hinv : Inv R r) (hstarted : r.started = true)
    (hi : r.nextPacket ≤ i) (hp : r.sourceBlock[i]? = some (some p)) :
    (∃ r', r.advance E i = .ok r' ∧ Inv R r' ∧ Moves r r' ∧ toLex (r.blocks, i) < r'.cursor) ∨
      ((∃ fault, r.advance E i = .error fault) ∧ ¬ Sized r.repairQueue) := by
  unfold advance
  dsimp only
  split
  · rcases nextBlock_spec (E := E) hinv hstarted with ⟨r', heq, hinv', hfilled, -⟩ | hfault
    · refine .inl ⟨r', heq, hinv', (moves_cleared r).trans hfilled.moves, ?_⟩
      rw [hfilled.cursor]
      exact lt_cursor_cleared r i
    · exact .inr hfault
  · next hne =>
    have hlt : i < r.sourceBlock.length := (List.getElem?_eq_some_iff.mp hp).1
    have hflags := hinv.settled (.inl (not_vacant hp))
    have hnext : toLex (r.blocks, i) < toLex (r.blocks, i + 1) :=
      Prod.Lex.toLex_lt_toLex.mpr (.inr ⟨rfl, Nat.lt_succ_self i⟩)
    refine .inl ⟨_, rfl, { hinv with
      source := fun j q hq => (hinv.source j q hq).imp_left fun hplace => { hplace with }
      settled := fun _ => hflags
      flags := hinv.flags
      unstarted := fun h => by rw [show r.started = false from h] at hstarted; cases hstarted
      cursor := fun _ => by
        show i + 1 < r.sourceBlock.length
        omega }, ⟨rfl, rfl, ?_, prefix_refl _, prefix_refl _⟩, hnext⟩
    exact (cursor_le hi).trans hnext.le

structure Taken (r r' : Reader) (o : Output) : Prop where
  place : ∃ block index p, o = .returned block index p ∧ r.cursor ≤ toLex (block, index) ∧
    (r'.alive = true → toLex (block, index) < r'.cursor) ∧ AtPosition r.base block index p

theorem Taken.of_moves {o : Output} (h1 : Moves r1 r2) (h2 : Taken r2 r3 o) : Taken r1 r3 o := by
  obtain ⟨block, index, p, rfl, hle, hlt, hat⟩ := h2.place
  exact ⟨block, index, p, rfl, h1.le.trans hle, hlt, h1.base ▸ hat⟩

/-- What `get_next_packet_` does from a state of the invariant. -/
structure Progress (R : BlockPacket → Prop) (r : Reader) (output : Option Output) (r' : Reader) : Prop where
  inv : Inv R r'
  moves : Moves r r'
  taken : ∀ o ∈ output, Taken r r' o

theorem Progress.of_moves (h1 : Moves r1 r2) (h2 : Progress R r2 output r3) : Progress R r1 output r3 :=
  ⟨h2.inv, h1.trans h2.moves, fun o ho => (h2.taken o ho).of_moves h1⟩

theorem progress_none (hinv : Inv R r) : Progress R r none r := ⟨hinv, .refl r, fun o ho => by cases ho⟩

theorem progress_advance (hinv : Inv R r) (hstarted : r.started = true)
    (hi : r.nextPacket ≤ i) (hp : r.sourceBlock[i]? = some (some p)) (heq : r.advance E i = .ok r') :
    Progress R r (some (.returned r.blocks i p)) r' := by
  rcases advance_spec (E := E) hinv hstarted hi hp with ⟨r1, h1, hinv', hmoves, hlt⟩ | ⟨⟨fault, h1⟩, -⟩
  · cases heq.symm.trans h1
    refine ⟨hinv', hmoves, fun o ho => ?_⟩
    cases ho
    exact ⟨r.blocks, i, p, rfl, cursor_le hi, fun _ => hlt, hinv.atPosition hp⟩
  · cases heq.symm.trans h1

theorem findNext_progress (hR : Restores E R) (fuel : Nat)
    (hinv : Inv R r) (hstarted : r.started = true) (heq : findNext E fuel r = .ok (output, code, r')) :
    Progress R r output r' := by
  induction fuel generalizing r with
  | zero => cases heq
  | succ fuel ih =>
    unfold findNext at heq
    split at heq
    · cases heq
      exact progress_none hinv
    · obtain ⟨r1, hrepair, heq⟩ := bind_eq_ok.mp heq
      obtain ⟨hinv1, hsame⟩ := tryRepair_spec hinv hstarted hR hrepair
      have hstarted1 := hsame.started.trans hstarted
      refine .of_moves hsame.moves ?_
      split at heq
      · next i p hfound =>
        obtain ⟨r2, hadvance, heq⟩ := bind_eq_ok.mp heq
        obtain ⟨hi, hp⟩ := firstPresent_getElem? hfound
        cases heq
        exact progress_advance hinv1 hstarted1 hi hp hadvance
      · split at heq
        · cases heq
          exact progress_none hinv1
        · obtain ⟨r2, hnext, heq⟩ := bind_eq_ok.mp heq
          rcases nextBlock_spec (E := E) hinv1 hstarted1 with ⟨r3, h3, hinv2, hfilled, -⟩ | ⟨⟨fault, h3⟩, -⟩
          · cases hnext.symm.trans h3
            exact .of_moves ((moves_cleared r1).trans hfilled.moves) (ih hinv2 (hfilled.started.trans hstarted1) heq)
          · cases hnext.symm.trans h3

theorem getNextPacket_progress (hR : Restores E R)
    (hinv : Inv R r) (hstarted : r.started = true) (heq : r.getNextPacket E = .ok (output, code, r')) :
    Progress R r output r' := by
  obtain ⟨r1, hfill, heq⟩ := bind_eq_ok.mp heq
  rcases fillBlock_spec (E := E) hinv hstarted with ⟨r2, h2, hinv1, hfilled, -⟩ | ⟨⟨fault, h2⟩, -⟩
  · cases hfill.symm.trans h2
    have hstarted1 := hfilled.started.trans hstarted
    refine .of_moves hfilled.moves ?_
    split at heq
    · cases heq
    · exact findNext_progress hR _ hinv1 hstarted1 heq
    · next p hp =>
      dsimp only at heq
      split at heq
      · next hdead =>
        cases heq
        refine ⟨hinv1, .refl _, fun o ho => ?_⟩
        cases ho
        refine ⟨_, _, p, rfl, le_refl _, fun halive => ?_, hinv1.atPosition hp⟩
        rw [halive] at hdead
        cases hdead
      · obtain ⟨r2, hadvance, heq⟩ := bind_eq_ok.mp heq
        cases heq
        exact progress_advance hinv1 hstarted1 (le_refl _) hp hadvance
  · cases hfill.symm.trans h2

/-! ## Fetching and starting -/

theorem mem_write {pp : BlockPacket} (queue : SortedQueue) (hp : p ∈ queue.write pp) : p = pp ∨ p ∈ queue := by
  induction queue with
  | nil => exact .inl (mem_singleton.mp hp)
  | cons pos rest ih =>
    unfold SortedQueue.write at hp
    split at hp
    · rcases mem_cons.mp hp with rfl | hp
      · exact .inr mem_cons_self
      · exact (ih hp).imp_right (mem_cons_of_mem _)
    · exact .inr hp
    · exact mem_cons.mp hp

variable {valid : Bool}

theorem fetchPackets_mem (packets : List BlockPacket)
    (heq : fetchPackets E packets queue = .ok (queue', valid)) (hp : p ∈ queue') :
    p ∈ queue ∨ (p ∈ packets ∧ p.fec ≠ none) := by
  induction packets generalizing queue with
  | nil =>
    cases heq
    exact .inl hp
  | cons pp rest ih =>
    unfold fetchPackets at heq
    split at heq
    · cases heq
    · next fec hfec =>
      split at heq
      · cases heq
        exact .inl hp
      · rcases ih heq with hqueue | ⟨hrest, hne⟩
        · rcases mem_write queue hqueue with rfl | hqueue
          · exact .inr ⟨mem_cons_self, by simp [hfec]⟩
          · exact .inl hqueue
        · exact .inr ⟨mem_cons_of_mem _ hrest, hne⟩

def Arrivals.Fresh (a : Arrivals) : Prop := ∀ p ∈ a.packets, p.restored = false

theorem fetchPackets_received {a : Arrivals} (hfresh : a.Fresh)
    (hqueue : ∀ p ∈ queue, Received p) (heq : fetchPackets E a.packets queue = .ok (queue', valid)) :
    ∀ p ∈ queue', Received p := by
  intro p hp
  rcases fetchPackets_mem a.packets heq hp with hold | ⟨hnew, hne⟩
  · exact hqueue p hold
  · exact ⟨ne_none_iff_exists'.mp hne, hfresh p hnew⟩

theorem fetchAllPackets_spec (hinv : Inv R r) (hsource : source.Fresh) (hrepair : repair.Fresh)
    {failure : Option StatusCode} (heq : r.fetchAllPackets E source repair = .ok (r', failure)) :
    Inv R r' ∧ ∃ alive sourceQueue repairQueue, r' = { r with alive, sourceQueue, repairQueue } := by
  obtain ⟨⟨queue, valid⟩, hfetch, heq⟩ := bind_eq_ok.mp heq
  have hqueue := fetchPackets_received hsource hinv.sourceQueue hfetch
  dsimp only at heq
  split at heq
  · cases heq
    exact ⟨hinv.requeue hqueue hinv.repairQueue, _, _, _, rfl⟩
  · obtain ⟨⟨queue2, valid2⟩, hfetch2, heq⟩ := bind_eq_ok.mp heq
    have hqueue2 := fetchPackets_received hrepair hinv.repairQueue hfetch2
    cases heq
    exact ⟨hinv.requeue hqueue hqueue2, _, _, _, rfl⟩

theorem dropRepairRound_spec (hqueue : ∀ p ∈ queue, Received p) :
    dropRepairRound { r with repairQueue := queue } = .ok (.leave { r with repairQueue := queue }) ∨
      (dropRepairRound { r with repairQueue := queue } = .ok (.again { r with repairQueue := queue.dropLast }) ∧
        queue.dropLast.length < queue.length) := by
  unfold dropRepairRound
  dsimp only
  cases hhead : queue.head with
  | none => exact .inl rfl
  | some pp =>
    have hmem : pp ∈ queue := mem_of_getLast? hhead
    obtain ⟨fec, hfec⟩ := (hqueue pp hmem).fec
    simp only [hfec]
    split
    · exact .inl rfl
    · exact .inr ⟨rfl, dropLast_shorter hmem⟩

theorem dropRepairPackets_spec (hqueue : ∀ p ∈ r.repairQueue, Received p) :
    ∃ repairQueue, r.dropRepairPacketsFromPrevBlocks = .ok { r with repairQueue } ∧
      repairQueue <+: r.repairQueue := by
  have htotal : ∃ r', r.dropRepairPacketsFromPrevBlocks = .ok r' ∧
      ∃ queue, queue <+: r.repairQueue ∧ r' = { r with repairQueue := queue } := by
    refine Loop.repeatUntil_total (I := fun s => ∃ queue, queue <+: r.repairQueue ∧ s = { r with repairQueue := queue })
      (μ := fun s => s.repairQueue.length) ?_ _ r ⟨_, prefix_refl _, rfl⟩ (Nat.lt_succ_self _)
    rintro s ⟨queue, hpre, rfl⟩
    rcases dropRepairRound_spec (r := r) (fun p hp => hqueue p (hpre.subset hp)) with heq | ⟨heq, hlen⟩
    · exact .inl ⟨_, heq, queue, hpre, rfl⟩
    · exact .inr ⟨_, heq, ⟨_, (List.dropLast_prefix _).trans hpre, rfl⟩, hlen⟩
  obtain ⟨r', heq, queue, hpre, rfl⟩ := htotal
  exact ⟨queue, heq, hpre⟩

theorem tryStart_spec (hinv : Inv R r) (hstarted : r.started = false) :
    ∃ r' started, r.tryStart E = .ok (r', started) ∧ Inv R r' ∧ r'.started = started ∧ r'.blocks = r.blocks ∧
      r'.sourceQueue = r.sourceQueue ∧ r'.repairQueue <+: r.repairQueue := by
  unfold tryStart
  cases hhead : r.sourceQueue.head with
  | none => exact ⟨r, false, rfl, hinv, hstarted, rfl, rfl, prefix_refl _⟩
  | some pp =>
    obtain ⟨fec, hfec⟩ := (hinv.sourceQueue pp (mem_of_getLast? hhead)).fec
    simp only [hfec]
    obtain ⟨hresized, hsized⟩ := processSourcePacket_spec (E := E) r fec
    generalize r.processSourcePacket E fec = done at hresized hsized
    obtain ⟨r1, ok⟩ := done
    have hinv1 := hinv.resized hresized
    have hstarted1 := hresized.started.trans hstarted
    cases ok with
    | false =>
      exact ⟨r1, false, rfl, hinv1, hstarted1, (hinv.filled hresized).blocks, hresized.sourceQueue,
        hresized.repairQueue ▸ prefix_refl _⟩
    | true =>
      obtain ⟨queue, hdrop, hpre⟩ := dropRepairPackets_spec
        (r := { r1 with curSbn := fec.sourceBlockNumber }) hinv1.repairQueue
      obtain ⟨hsource, hrepair, hzero⟩ := hinv1.unstarted hstarted1
      obtain ⟨hsized, hesi⟩ := hsized rfl
      have hinv2 : ∀ started, Inv R { r1 with
          curSbn := fec.sourceBlockNumber, repairQueue := queue, started } := fun started =>
        { hinv1 with
          repairQueue := fun p hp => hinv1.repairQueue p (hpre.subset hp)
          source := fun i p hp => absurd hsource (not_vacant hp)
          flags := hinv1.flags
          unstarted := fun _ => ⟨hsource, hrepair, hzero⟩
          cursor := fun _ => by
            show r1.nextPacket < r1.sourceBlock.length
            rw [hzero, hsized.source_eq]
            omega }
      have hqueue : queue <+: r.repairQueue := hresized.repairQueue ▸ hpre
      dsimp only
      rw [hdrop, ok_bind]
      split
      · refine ⟨_, _, rfl, ?_, hstarted1, (hinv.filled hresized).blocks, hresized.sourceQueue, hqueue⟩
        have := hinv2 false
        rw [← hstarted1] at this
        exact this
      · exact ⟨_, _, rfl, hinv2 true, rfl, (hinv.filled hresized).blocks, hresized.sourceQueue, hqueue⟩

/-! ## Runs -/

inductive Run (E : Env) : Reader → List Output → Prop
  | start : Run E {} []
  | read {r r' : Reader} {outputs : List Output} {source repair : Arrivals} {output : Option Output}
      {code : StatusCode} : Run E r outputs → source.Fresh → repair.Fresh →
      r.read E source repair = .ok (output, code, r') → Run E r' (outputs ++ output.toList)

def Output.Forwarded : Output → Prop
  | .forwarded _ => True
  | .returned _ _ _ => False

/-- What `read_` does: it forwards, or takes from a block after it has started. -/
structure ReadStep (R : BlockPacket → Prop) (r : Reader) (output : Option Output) (r' : Reader) : Prop where
  inv : Inv R r'
  step : (r.started = false ∧ r'.started = false ∧ ∀ o ∈ output, o.Forwarded) ∨
    ∃ r₀, r₀.started = true ∧ (r.started = true → r₀.base = r.base ∧ r₀.cursor = r.cursor) ∧
      Moves r₀ r' ∧ ∀ o ∈ output, Taken r₀ r' o

theorem readStep_of_same (hinv : Inv R r') (hstarted : r'.started = r.started) (hbase : r'.base = r.base)
    (hcursor : r'.cursor = r.cursor) : ReadStep R r none r' := by
  refine ⟨hinv, ?_⟩
  cases hs : r.started with
  | false => exact .inl ⟨rfl, hstarted.trans hs, fun o ho => by cases ho⟩
  | true => exact .inr ⟨r', hstarted.trans hs, fun _ => ⟨hbase, hcursor⟩, .refl r', fun o ho => by cases ho⟩

theorem readPacket_step (hR : Restores E R) (hinv : Inv R r) (hsource : source.Fresh) (hrepair : repair.Fresh)
    (heq : r.readPacket E source repair = .ok (output, code, r')) : ReadStep R r output r' := by
  obtain ⟨⟨r1, failure⟩, hfetch, heq⟩ := bind_eq_ok.mp heq
  obtain ⟨hinv1, alive, sourceQueue, repairQueue, rfl⟩ := fetchAllPackets_spec hinv hsource hrepair hfetch
  cases failure with
  | some failure =>
    cases heq
    exact readStep_of_same hinv1 rfl rfl rfl
  | none =>
    obtain ⟨⟨r2, started⟩, hstart, heq⟩ := bind_eq_ok.mp heq
    cases hs : r.started with
    | true =>
      unfold ensureStarted at hstart
      rw [if_pos hs] at hstart
      cases hstart
      have hprogress := getNextPacket_progress hR hinv1 hs heq
      exact ⟨hprogress.inv, .inr ⟨{ r with alive, sourceQueue, repairQueue },
        hs, fun _ => ⟨rfl, rfl⟩, hprogress.moves, hprogress.taken⟩⟩
    | false =>
      obtain ⟨r3, started', h3, hinv2, hstarted2, -⟩ := tryStart_spec (E := E) hinv1 hs
      unfold ensureStarted at hstart
      rw [if_neg (by simp [hs])] at hstart
      cases hstart.symm.trans h3
      cases started with
      | true =>
        have hprogress := getNextPacket_progress hR hinv2 hstarted2 heq
        exact ⟨hprogress.inv, .inr ⟨r2, hstarted2, fun h => (by rw [hs] at h; cases h), hprogress.moves,
          hprogress.taken⟩⟩
      | false =>
        have heq : (Except.ok r2.forward : Except Fault _) = .ok (output, code, r') := heq
        unfold forward at heq
        split at heq
        · cases heq
          exact ⟨hinv2, .inl ⟨hs, hstarted2, fun o ho => by cases ho⟩⟩
        · cases heq
          exact ⟨hinv2.popSource, .inl ⟨hs, hstarted2, fun o ho => by cases ho; trivial⟩⟩

theorem ReadStep.silent (h : ReadStep R r output r') : ReadStep R r none r' :=
  ⟨h.inv, h.step.imp (fun ⟨hs, hs', _⟩ => ⟨hs, hs', fun o ho => by cases ho⟩)
    fun ⟨r0, hs, hsame, hmoves, _⟩ => ⟨r0, hs, hsame, hmoves, fun o ho => by cases ho⟩⟩

def Output.position : Output → Option (ℕ ×ₗ ℕ)
  | .forwarded _ => none
  | .returned block index _ => some (toLex (block, index))

theorem Output.Forwarded.eq {o : Output} (h : o.Forwarded) : ∃ p, o = .forwarded p := by
  cases o with
  | forwarded p => exact ⟨p, rfl⟩
  | returned b i p => cases h

structure Ordered (r : Reader) (outputs : List Output) : Prop where
  increasing : (outputs.filterMap Output.position).Pairwise (· < ·)
  forwarded : outputs.Pairwise fun o o' => o'.Forwarded → o.Forwarded
  unstarted : r.started = false → ∀ o ∈ outputs, o.Forwarded
  returned : ∀ b i p, Output.returned b i p ∈ outputs → toLex (b, i) < r.cursor ∧ AtPosition r.base b i p

theorem mem_positions {q : ℕ ×ₗ ℕ} (hq : q ∈ outputs.filterMap Output.position) :
    ∃ b i p, Output.returned b i p ∈ outputs ∧ q = toLex (b, i) := by
  obtain ⟨o, ho, hpos⟩ := mem_filterMap.mp hq
  cases o with
  | forwarded p => cases hpos
  | returned b i p =>
    cases hpos
    exact ⟨b, i, p, ho, rfl⟩

theorem Ordered.step (h : Ordered r outputs) (hstep : ReadStep R r output r') (halive : ∀ o ∈ output, r'.alive = true) :
    Ordered r' (outputs ++ output.toList) := by
  rcases hstep.step with ⟨hs, hs', hforward⟩ | ⟨r0, hs0, hsame, hmoves, htaken⟩
  · have hold := h.unstarted hs
    have hall : ∀ o ∈ outputs ++ output.toList, o.Forwarded := fun o ho =>
      (mem_append.mp ho).elim (hold o) fun ho => hforward o (mem_toList.mp ho)
    refine ⟨?_, ?_, fun _ => hall, fun b i p hp => (hall _ hp).elim⟩
    · rw [filterMap_eq_nil_iff.mpr fun o ho => by obtain ⟨p, rfl⟩ := (hall o ho).eq; rfl]
      exact .nil
    · exact pairwise_of_forall_mem_list fun o ho _ _ _ => hall o ho
  · -- the packets returned before lie before the place the step starts from
    have hold : ∀ b i p, Output.returned b i p ∈ outputs → toLex (b, i) < r0.cursor ∧ AtPosition r0.base b i p := by
      intro b i p hp
      cases hs : r.started with
      | false => exact (h.unstarted hs _ hp).elim
      | true =>
        obtain ⟨hbase, hcursor⟩ := hsame hs
        rw [hbase, hcursor]
        exact h.returned b i p hp
    have hs' : r'.started = true := hmoves.started.trans hs0
    cases output with
    | none =>
      rw [toList_none, append_nil]
      refine ⟨h.increasing, h.forwarded, fun hs => (by rw [hs'] at hs; cases hs), fun b i p hp => ?_⟩
      obtain ⟨hlt, hat⟩ := hold b i p hp
      exact ⟨hlt.trans_le hmoves.le, hmoves.base ▸ hat⟩
    | some o =>
      obtain ⟨b, i, p, rfl, hle, hlt, hat⟩ := (htaken o rfl).place
      have hlt := hlt (halive _ rfl)
      rw [toList_some]
      refine ⟨?_, ?_, fun hs => (by rw [hs'] at hs; cases hs), fun b' i' p' hp => ?_⟩
      · rw [filterMap_append, pairwise_append]
        refine ⟨h.increasing, pairwise_singleton _ _, fun q hq q' hq' => ?_⟩
        obtain ⟨b', i', p', hmem, rfl⟩ := mem_positions hq
        cases mem_singleton.mp hq'
        exact (hold b' i' p' hmem).1.trans_le hle
      · rw [pairwise_append]
        refine ⟨h.forwarded, pairwise_singleton _ _, fun o _ o' ho' hforward => ?_⟩
        cases mem_singleton.mp ho'
        exact hforward.elim
      · rcases mem_append.mp hp with hp | hp
        · obtain ⟨hlt, hat⟩ := hold b' i' p' hp
          exact ⟨hlt.trans_le hmoves.le, hmoves.base ▸ hat⟩
        · cases mem_singleton.mp hp
          exact ⟨hlt, hmoves.base ▸ hat⟩

theorem Run.ordered (hR : Restores E R) (hrun : Run E r outputs) : Inv R r ∧ Ordered r outputs := by
  induction hrun with
  | start =>
    exact ⟨inv_initial, .nil, .nil, fun _ o ho => (by cases ho), fun b i p hp => by cases hp⟩
  | @read r r' outputs source repair output code _ hsource hrepair hread ih =>
    obtain ⟨hinv, hordered⟩ := ih
    unfold Reader.read at hread
    split at hread
    · cases hread
      exact ⟨hinv, by simpa using hordered⟩
    · obtain ⟨⟨output1, code1, r1⟩, hpacket, hread⟩ := bind_eq_ok.mp hread
      have hstep := readPacket_step hR hinv hsource hrepair hpacket
      dsimp only at hread
      split at hread
      · cases hread
        exact ⟨hstep.inv, hordered.step hstep.silent fun o ho => by cases ho⟩
      · next hdead =>
        cases hread
        exact ⟨hstep.inv, hordered.step hstep fun _ _ => by simpa using hdead⟩

/-- Packets are returned in the order of their places, each from the place that its number tells; only those of before
the start are forwarded. -/
theorem outputs_ordered (E : Env) (r : Reader) (outputs : List Output) (hrun : Run E r outputs) :
    (outputs.filterMap Output.position).Pairwise (· < ·) ∧
      (outputs.Pairwise fun o o' => o'.Forwarded → o.Forwarded) ∧
      ∃ start : UInt16, ∀ b i p, Output.returned b i p ∈ outputs → AtPosition start b i p := by
  obtain ⟨-, hordered⟩ := hrun.ordered (R := fun _ => True) fun _ _ _ _ _ => trivial
  exact ⟨hordered.increasing, hordered.forwarded, r.base, fun b i p hp => (hordered.returned b i p hp).2⟩

def idleEnv : Env where
  fecScheme := .reedSolomonM8
  maxBlockLength := 255
  begins _ _ _ _ := true
  repair _ _ _ := none
  parse := Packet.parseRtp (fun _ => true) none
  newPacket _ _ := true
  resizes _ := true

/-- A packet of a block of four source and two repair packets, with a payload of `size` bytes. -/
def blockPacket (sbn : UInt16) (esi size : Nat) : BlockPacket where
  fec := some {
    fecScheme := .reedSolomonM8, encodingSymbolId := esi, sourceBlockNumber := sbn, sourceBlockLength := 4,
    blockLength := 6, payload := List.replicate size 0 }

theorem outputs_ordered_twoPackets : ∃ r outputs, outputs.length = 2 ∧ Run idleEnv r outputs ∧
    (outputs.filterMap Output.position).Pairwise (· < ·) := by
  have hfresh : Arrivals.Fresh {} := fun p hp => by cases hp
  have hsource : Arrivals.Fresh { packets := [blockPacket 7 2 1, blockPacket 7 0 1] } := by unfold Arrivals.Fresh; decide
  have hrun : Run idleEnv _ _ := .read (.read .start hsource hfresh rfl) hfresh hfresh rfl
  exact ⟨_, _, rfl, hrun, (outputs_ordered idleEnv _ _ hrun).1⟩

/-! ## Second attempts -/

inductive Visits (E : Env) : Reader → Prop
  | initial : Visits E {}
  | fetched {r r' : Reader} {source repair : Arrivals} {failure : Option StatusCode} : Visits E r → source.Fresh →
      repair.Fresh → r.fetchAllPackets E source repair = .ok (r', failure) → Visits E r'
  | startTried {r r' : Reader} {started : Bool} : Visits E r → r.started = false →
      r.tryStart E = .ok (r', started) → Visits E r'
  | filled {r r' : Reader} : Visits E r → r.started = true → r.fillBlock E = .ok r' → Visits E r'
  | repaired {r r' : Reader} : Visits E r → r.started = true → r.tryRepair E = .ok r' → Visits E r'
  | next {r r' : Reader} : Visits E r → r.started = true → r.nextBlock E = .ok r' → Visits E r'
  | read {r r' : Reader} {source repair : Arrivals} {output : Option Output} {code : StatusCode} : Visits E r →
      source.Fresh → repair.Fresh → r.read E source repair = .ok (output, code, r') → Visits E r'

theorem read_inv (hR : Restores E R) (hinv : Inv R r) (hsource : source.Fresh) (hrepair : repair.Fresh)
    (heq : r.read E source repair = .ok (output, code, r')) : Inv R r' := by
  unfold Reader.read at heq
  split at heq
  · cases heq
    exact hinv
  · obtain ⟨⟨output1, code1, r1⟩, hpacket, heq⟩ := bind_eq_ok.mp heq
    have hinv1 := (readPacket_step hR hinv hsource hrepair hpacket).inv
    dsimp only at heq
    split at heq <;>
    · cases heq
      exact hinv1

theorem Visits.inv (hR : Restores E R) (h : Visits E r) : Inv R r := by
  induction h with
  | initial => exact inv_initial
  | fetched _ hsource hrepair heq ih => exact (fetchAllPackets_spec ih hsource hrepair heq).1
  | startTried _ hs heq ih =>
    obtain ⟨r1, started, h1, hinv, -⟩ := tryStart_spec (E := E) ih hs
    cases heq.symm.trans h1
    exact hinv
  | filled _ hs heq ih =>
    rcases fillBlock_spec (E := E) ih hs with ⟨r1, h1, hinv, -⟩ | ⟨⟨fault, h1⟩, -⟩
    · cases heq.symm.trans h1
      exact hinv
    · cases heq.symm.trans h1
  | repaired _ hs heq ih => exact (tryRepair_spec ih hs hR heq).1
  | next _ hs heq ih =>
    rcases nextBlock_spec (E := E) ih hs with ⟨r1, h1, hinv, -⟩ | ⟨⟨fault, h1⟩, -⟩
    · cases heq.symm.trans h1
      exact hinv
    · cases heq.symm.trans h1
  | read _ hsource hrepair heq ih => exact read_inv hR ih hsource hrepair heq

theorem parseRtp_fec {packet p : Packet}
    (h : Packet.parseRtp isAudio none packet buffer = some p) : p.fec = packet.fec := by
  unfold Packet.parseRtp Packet.parseInner at h
  dsimp only at h
  split at h
  · cases h
  · split at h
    · cases h
    · obtain ⟨headerSize, -, h⟩ := bind_eq_some_iff.mp h
      obtain ⟨payloadEnd, -, h⟩ := bind_eq_some_iff.mp h
      cases h
      rfl

theorem restores_of_parseRtp (hparse : E.parse = Packet.parseRtp isAudio none) : Restores E fun p => p.fec = none := by
  intro attempt index buffer packet h
  unfold parseRepairedPacket at h
  split at h
  · cases h
  · obtain ⟨p, hp, rfl⟩ := map_eq_some_iff.mp h
    rw [hparse] at hp
    exact parseRtp_fec hp

/-- Every packet of the source block can be given to the decoder. -/
def Usable (r : Reader) : Prop :=
  ∀ p, some p ∈ r.sourceBlock → ∃ fec, p.fec = some fec ∧ fec.payload.length = r.payloadSize

/-- No packet of the source block was restored by the decoder. -/
def Unrestored (r : Reader) : Prop := ∀ p, some p ∈ r.sourceBlock → p.restored = false

theorem Inv.usable_iff (hinv : Inv (fun p => p.fec = none) r) : r.Usable ↔ r.Unrestored := by
  refine forall₂_congr fun p hp => ?_
  obtain ⟨i, hi⟩ := mem_iff_getElem?.mp hp
  rcases hinv.source i p hi with hplace | ⟨hrestored, hfec⟩
  · obtain ⟨fec, hfec, hsize, -⟩ := hplace.fec
    exact ⟨fun _ => hplace.restored, fun _ => ⟨fec, hfec, hsize⟩⟩
  · simp [hrestored, hfec]

/-- The packets of the block can be given to the decoder when and only when none of them was restored before, and an
attempt with a restored packet follows a null pointer. -/
theorem usable_iff_unrestored (E : Env) (isAudio : UInt8 → Bool)
    (hparse : E.parse = Packet.parseRtp isAudio none) (r : Reader) (hvisits : Visits E r) :
    (r.Usable ↔ r.Unrestored) ∧ ((∃ r', r.tryRepair E = .ok r') ↔ (r.Attempts E → r.Unrestored)) := by
  have hinv := hvisits.inv (restores_of_parseRtp hparse)
  refine ⟨hinv.usable_iff, ?_⟩
  rw [tryRepair_returns_iff hinv]
  refine imp_congr_right fun _ => ⟨fun h => ?_, fun h p hp => ?_⟩
  · refine hinv.usable_iff.mp fun p hp => ?_
    obtain ⟨i, hi⟩ := List.mem_iff_getElem?.mp hp
    rcases hinv.source i p hi with hplace | ⟨-, hfec⟩
    · obtain ⟨fec, hfec, hsize, -⟩ := hplace.fec
      exact ⟨fec, hfec, hsize⟩
    · exact absurd hfec (h p hp)
  · obtain ⟨fec, hfec, -⟩ := hinv.usable_iff.mpr h p hp
    simp [hfec]

theorem usable_iff_unrestored_received :
    ∃ r, Visits idleEnv r ∧ some (blockPacket 7 0 1) ∈ r.sourceBlock ∧
    (r.Usable ↔ r.Unrestored) ∧ ((∃ r', r.tryRepair idleEnv = .ok r') ↔ (r.Attempts idleEnv → r.Unrestored)) := by
  have hfresh : Arrivals.Fresh {} := fun p hp => by cases hp
  have hsource : Arrivals.Fresh { packets := [blockPacket 7 0 1] } := by unfold Arrivals.Fresh; decide
  have hvisits : Visits idleEnv _ := .read .initial hsource hfresh rfl
  exact ⟨_, hvisits, List.mem_cons_self, usable_iff_unrestored idleEnv (fun _ => true) rfl _ hvisits⟩

def secondOnlyEnv : Env :=
  { idleEnv with repair := fun _ _ index => if index = 1 then some (0x80 :: List.replicate 11 0) else none }

/-- A source and a repair packet of a block, and later another repair packet: the second packet is restored at the
second call and returned, and the third call follows its missing FEC part. -/
theorem secondAttempt_nullPointer :
    ∃ (r : Reader) (outputs : List Output), Run secondOnlyEnv r outputs ∧ ¬ r.Usable ∧
      r.read secondOnlyEnv {} { packets := [blockPacket 7 5 12] } = .error .nullPointer := by
  have hfresh : Arrivals.Fresh {} := fun p hp => by cases hp
  have hsource : Arrivals.Fresh { packets := [blockPacket 7 0 12] } := by unfold Arrivals.Fresh; decide
  have hrepair : Arrivals.Fresh { packets := [blockPacket 7 4 12] } := by unfold Arrivals.Fresh; decide
  have hrun : Run secondOnlyEnv _ _ := .read (.read .start hsource hrepair rfl) hfresh hfresh rfl
  refine ⟨_, _, hrun, fun husable => ?_, rfl⟩
  obtain ⟨fec, hfec, -⟩ := husable _ (List.mem_cons_of_mem _ List.mem_cons_self)
  cases hfec

/-! ## Start -/

theorem processSourcePacket_accepts_iff {fec : Packet.Fec} (hvalid : validateIncomingSourcePacket fec = true)
    (hmax : fec.sourceBlockLength ≤ E.maxBlockLength) (hresizes : E.resizes r.resizings = true) :
    (r.processSourcePacket E fec).2 = true ↔
      (r.payloadResized = true → r.payloadSize = fec.payload.length) ∧
      (r.sourceBlockResized = true → r.sourceBlock.length = fec.sourceBlockLength) := by
  unfold processSourcePacket canUpdateSourceBlockSize canUpdateSize updateSourceBlockSize updatePayloadSize
    canUpdatePayloadSize
  by_cases hpayload : r.payloadSize = fec.payload.length <;> by_cases hlen : r.sourceBlock.length = fec.sourceBlockLength
    <;> cases hpr : r.payloadResized <;> cases hsr : r.sourceBlockResized
    <;> simp [hvalid, hpayload, hlen, hresizes, Nat.not_lt.mpr hmax]

/-- A reader whose queue starts with the first packet of a block starts there when and only when no size was settled
before, by a packet that did not let it start, to another value. -/
theorem tryStart_iff (E : Env) (r : Reader) (hvisits : Visits E r) (pp : BlockPacket) (fec : Packet.Fec)
    (hhead : r.sourceQueue.head = some pp) (hfec : pp.fec = some fec)
    (hvalid : validateIncomingSourcePacket fec = true) (hesi : fec.encodingSymbolId = 0)
    (hmax : fec.sourceBlockLength ≤ E.maxBlockLength) (hresizes : E.resizes r.resizings = true) :
    (∃ r', r.tryStart E = .ok (r', true) ∧ r'.started = true ∧ r'.curSbn = fec.sourceBlockNumber ∧
        r'.payloadSize = fec.payload.length ∧ r'.sourceBlock.length = fec.sourceBlockLength) ↔
      (r.payloadResized = true → r.payloadSize = fec.payload.length) ∧
      (r.sourceBlockResized = true → r.sourceBlock.length = fec.sourceBlockLength) := by
  have hinv := hvisits.inv (R := fun _ => True) fun _ _ _ _ _ => trivial
  rw [← processSourcePacket_accepts_iff hvalid hmax hresizes]
  obtain ⟨hresized, hsized⟩ := processSourcePacket_spec (E := E) r fec
  unfold tryStart
  simp only [hhead, hfec]
  generalize r.processSourcePacket E fec = done at hresized hsized
  obtain ⟨r₁, ok⟩ := done
  cases ok with
  | false => exact ⟨fun ⟨r', h, _⟩ => (by cases h), fun h => by cases h⟩
  | true =>
    obtain ⟨queue, hdrop, -⟩ := dropRepairPackets_spec (r := { r₁ with curSbn := fec.sourceBlockNumber })
      (hinv.resized hresized).repairQueue
    obtain ⟨hsized, -⟩ := hsized rfl
    refine ⟨fun _ => rfl, fun _ =>
      ⟨{ r₁ with curSbn := fec.sourceBlockNumber, repairQueue := queue, started := true }, ?_, rfl, rfl,
        hsized.payload_eq, hsized.source_eq⟩⟩
    dsimp only
    rw [hdrop, ok_bind, if_neg (by omega)]

theorem tryStart_iff_first :
    ∃ r, Visits idleEnv r ∧
    ((∃ r', r.tryStart idleEnv = .ok (r', true) ∧ r'.started = true ∧ r'.curSbn = 7 ∧ r'.payloadSize = 1 ∧
        r'.sourceBlock.length = 4) ↔
      (r.payloadResized = true → r.payloadSize = 1) ∧ (r.sourceBlockResized = true → r.sourceBlock.length = 4)) := by
  have hfresh : Arrivals.Fresh {} := fun p hp => by cases hp
  have hsource : Arrivals.Fresh { packets := [blockPacket 7 0 1] } := by unfold Arrivals.Fresh; decide
  have hvisits : Visits idleEnv _ := .fetched .initial hsource hfresh rfl
  exact ⟨_, hvisits, tryStart_iff idleEnv _ hvisits (blockPacket 7 0 1) _ rfl rfl rfl rfl (by decide) rfl⟩

/-- After a packet from the middle of a block with payloads of one byte, the reader does not start at the next block
if its payloads have two. -/
theorem tryStart_refused : ∃ r r', Visits idleEnv r ∧ r.alive = true ∧ r.started = false ∧
    r.sourceQueue.head = some (blockPacket 8 0 2) ∧ r.tryStart idleEnv = .ok (r', false) := by
  have hfresh : Arrivals.Fresh {} := fun p hp => by cases hp
  have hleading : Arrivals.Fresh { packets := [blockPacket 7 1 1] } := by unfold Arrivals.Fresh; decide
  have hfirst : Arrivals.Fresh { packets := [blockPacket 8 0 2] } := by unfold Arrivals.Fresh; decide
  have hvisits : Visits idleEnv _ := .fetched (.read .initial hleading hfresh rfl) hfirst hfresh rfl
  exact ⟨_, _, hvisits, rfl, rfl, rfl, rfl⟩

/-- What the blocks of a reader hold, in every state it gets to: a packet that was not restored stands at the place its
symbol id says, in the block it was made for, and all payloads have one size. Filling the block panics at most on a
repair packet that says nothing of the length of its block. -/
theorem blocks_of_visits (E : Env) (r : Reader) (h : Visits E r) :
    (∀ (i : Nat) (p : BlockPacket), r.sourceBlock[i]? = some (some p) → p.restored = false →
      ∃ fec, p.fec = some fec ∧ fec.encodingSymbolId = i ∧ fec.sourceBlockNumber = r.curSbn ∧
        fec.payload.length = r.payloadSize) ∧
    (∀ p, some p ∈ r.repairBlock → ∃ fec, p.fec = some fec ∧ fec.payload.length = r.payloadSize) ∧
    (r.started = false → Vacant r.sourceBlock ∧ Vacant r.repairBlock) ∧
    (r.started = true → r.nextPacket < r.sourceBlock.length ∧
      ((∃ r', r.fillBlock E = .ok r') ∨ ∃ p ∈ r.repairQueue, ∃ fec, p.fec = some fec ∧ fec.blockLength = 0)) := by
  have hinv : Inv (fun _ => True) r := h.inv fun _ _ _ _ _ => trivial
  refine ⟨fun i p hp hnot => ?_, hinv.repair, fun hs => ?_, fun hs => ⟨hinv.cursor hs, ?_⟩⟩
  · rcases hinv.source i p hp with hplace | ⟨hrestored, -⟩
    · obtain ⟨fec, hfec, hsize, hsbn, hesi⟩ := hplace.fec
      exact ⟨fec, hfec, hesi, hsbn, hsize⟩
    · rw [hnot] at hrestored
      cases hrestored
  · obtain ⟨hsource, hrepair, -⟩ := hinv.unstarted hs
    exact ⟨hsource, hrepair⟩
  · rcases fillBlock_spec (E := E) hinv hs with ⟨r', hfill, -⟩ | ⟨-, hsized⟩
    · exact .inl ⟨r', hfill⟩
    · unfold Sized at hsized
      push Not at hsized
      exact .inr hsized

theorem blocks_of_visits_first : ∃ r, Visits idleEnv r ∧ r.started = true ∧ r.nextPacket < r.sourceBlock.length := by
  have hfresh : Arrivals.Fresh {} := fun p hp => by cases hp
  have hsource : Arrivals.Fresh { packets := [blockPacket 7 0 1] } := by unfold Arrivals.Fresh; decide
  have hvisits : Visits idleEnv _ := .startTried (.fetched .initial hsource hfresh rfl) rfl rfl
  exact ⟨_, hvisits, rfl, ((blocks_of_visits idleEnv _ hvisits).2.2.2 rfl).1⟩

end Roc.Fec.Reader
