import RocToolkit.Fec.Reader

/-!
# RocToolkit.Fec.ReaderInvariant

What holds of a `fec::Reader` between any two of its steps.

The three flags `*_resized_` say that the sizes of the current block are settled. A block has packets only when they
are, so that the sizes never change under a packet: `Resized` is what the checks of a packet may do to the sizes, and
`Inv` is kept by it.
-/

namespace Roc.Fec.Reader

open List

open Roc.Packet (blknumLt blknumLe diff16)

def Vacant (block : List (Option BlockPacket)) : Prop := ∀ place ∈ block, place = none

variable {block : List (Option BlockPacket)} {n : Nat} {p pp : BlockPacket}

theorem vacant_iff : Vacant block ↔ ∀ (i : Nat) (p : BlockPacket), block[i]? ≠ some (some p) := by
  constructor
  · intro hvacant i p hp
    exact absurd (hvacant _ (mem_of_getElem? hp)) (by simp)
  · intro hnone place hplace
    obtain ⟨i, hi⟩ := mem_iff_getElem?.mp hplace
    cases place with
    | none => rfl
    | some p => exact absurd hi (hnone i p)

theorem vacant_replicate (n : Nat) : Vacant (List.replicate n none) := fun _ hplace => (mem_replicate.mp hplace).2

structure Complete (block : List (Option BlockPacket)) : Prop where
  nonempty : block ≠ []
  present : ∀ place ∈ block, place ≠ none

theorem Complete.not_vacant (h : Complete block) : ¬ Vacant block := by
  obtain ⟨place, hplace⟩ := exists_mem_of_ne_nil block h.nonempty
  exact fun hvacant => h.present place hplace (hvacant place hplace)

theorem mem_of_mem_resize (hp : some p ∈ resize block n) : some p ∈ block := by
  rcases mem_append.mp hp with htake | hnew
  · exact mem_of_mem_take htake
  · exact absurd (mem_replicate.mp hnew).2 (by simp)

theorem length_resize (block : List (Option BlockPacket)) (n : Nat) : (resize block n).length = n := by
  unfold Reader.resize
  rw [length_append, length_take, length_replicate]
  omega

/-! ## Sizes -/

def FlagsOrdered (r : Reader) : Prop :=
  r.repairBlockResized = true → r.sourceBlockResized = true ∧ r.payloadResized = true

structure Resized (r r' : Reader) : Prop where
  frame : r' = { r with
    alive := r'.alive, payloadSize := r'.payloadSize, payloadResized := r'.payloadResized
    sourceBlock := r'.sourceBlock, sourceBlockResized := r'.sourceBlockResized
    repairBlock := r'.repairBlock, repairBlockResized := r'.repairBlockResized, resizings := r'.resizings }
  payload : r.payloadResized = true → r'.payloadSize = r.payloadSize ∧ r'.payloadResized = true
  source : r.sourceBlockResized = true → r'.sourceBlock = r.sourceBlock ∧ r'.sourceBlockResized = true
  repair : r.repairBlockResized = true → r'.repairBlock = r.repairBlock ∧ r'.repairBlockResized = true
  source_mem : ∀ p, some p ∈ r'.sourceBlock → some p ∈ r.sourceBlock
  repair_mem : ∀ p, some p ∈ r'.repairBlock → some p ∈ r.repairBlock
  source_pos : 0 < r.sourceBlock.length → 0 < r'.sourceBlock.length
  flags : r.FlagsOrdered → r'.FlagsOrdered
  alive : r'.alive = true → r.alive = true

variable {E : Env} {r r' : Reader} {fec : Packet.Fec}

theorem Resized.refl (r : Reader) : Resized r r where
  frame := rfl
  payload h := ⟨rfl, h⟩
  source h := ⟨rfl, h⟩
  repair h := ⟨rfl, h⟩
  source_mem _ hp := hp
  repair_mem _ hp := hp
  source_pos h := h
  flags h := h
  alive h := h

theorem kept_trans {α : Type} {a b c : α} {set set' set'' : Bool} (h1 : set = true → b = a ∧ set' = true)
    (h2 : set' = true → c = b ∧ set'' = true) (h : set = true) : c = a ∧ set'' = true := by
  obtain ⟨hb, hset⟩ := h1 h
  obtain ⟨hc, hset'⟩ := h2 hset
  exact ⟨hc.trans hb, hset'⟩

variable {r1 r2 r3 : Reader} {queue : SortedQueue}

theorem Resized.trans (h1 : Resized r1 r2) (h2 : Resized r2 r3) : Resized r1 r3 where
  frame := by rw [h2.frame, h1.frame]
  payload := kept_trans h1.payload h2.payload
  source := kept_trans h1.source h2.source
  repair := kept_trans h1.repair h2.repair
  source_mem p hp := h1.source_mem p (h2.source_mem p hp)
  repair_mem p hp := h1.repair_mem p (h2.repair_mem p hp)
  source_pos h := h2.source_pos (h1.source_pos h)
  flags h := h2.flags (h1.flags h)
  alive h := h1.alive (h2.alive h)

theorem vacant_of_mem {block' : List (Option BlockPacket)} (hmem : ∀ p, some p ∈ block' → some p ∈ block)
    (hvacant : Vacant block) : Vacant block' := by
  intro place hplace
  cases place with
  | none => rfl
  | some p => exact hvacant _ (hmem p hplace)

section
variable (h : Resized r r')
include h

theorem Resized.source_vacant : Vacant r.sourceBlock → Vacant r'.sourceBlock := vacant_of_mem h.source_mem

theorem Resized.repair_vacant : Vacant r.repairBlock → Vacant r'.repairBlock := vacant_of_mem h.repair_mem

theorem Resized.started : r'.started = r.started := by rw [h.frame]

theorem Resized.nextPacket : r'.nextPacket = r.nextPacket := by rw [h.frame]

theorem Resized.curSbn : r'.curSbn = r.curSbn := by rw [h.frame]

theorem Resized.sourceQueue : r'.sourceQueue = r.sourceQueue := by rw [h.frame]

theorem Resized.repairQueue : r'.repairQueue = r.repairQueue := by rw [h.frame]

end

open Resized

theorem Resized.dead (r : Reader) : Resized r { r with alive := false } :=
  { refl r with frame := rfl, flags := fun h => h, alive := fun h => by cases h }

theorem canUpdateSize_spec (same resized : Bool) (newLen : Nat) : Resized r (r.canUpdateSize E same resized newLen).1 ∧
      ((r.canUpdateSize E same resized newLen).2 = true →
        (r.canUpdateSize E same resized newLen).1 = r ∧ (same = true ∨ resized = false)) := by
  unfold canUpdateSize
  split
  · next h => exact ⟨.refl r, fun _ => ⟨rfl, .inl h⟩⟩
  · split
    · exact ⟨.refl r, fun h => by cases h⟩
    · next h =>
      split
      · exact ⟨.dead r, fun h => by cases h⟩
      · exact ⟨.refl r, fun _ => ⟨rfl, .inr (Bool.eq_false_iff.mpr h)⟩⟩

theorem updatePayloadSize_resized (h : r.canUpdatePayloadSize n = true) : Resized r (r.updatePayloadSize n) :=
  { refl r with
    frame := rfl
    payload := fun hset => by
      unfold canUpdatePayloadSize at h
      rw [hset] at h
      simp only [Bool.not_true, Bool.or_false, decide_eq_true_eq] at h
      exact ⟨h.symm, rfl⟩
    flags := fun hflags hset => ⟨(hflags hset).1, rfl⟩ }

theorem updateSourceBlockSize_spec (hn : 0 < n) (h : r.sourceBlock.length = n ∨ r.sourceBlockResized = false) :
    Resized r (r.updateSourceBlockSize E n).1 ∧
      ((r.updateSourceBlockSize E n).2 = true → (r.updateSourceBlockSize E n).1.sourceBlock.length = n ∧
        (r.updateSourceBlockSize E n).1.sourceBlockResized = true ∧
        (r.updateSourceBlockSize E n).1.payloadResized = r.payloadResized ∧
        (r.updateSourceBlockSize E n).1.payloadSize = r.payloadSize ∧
        (r.updateSourceBlockSize E n).1.repairBlockResized = r.repairBlockResized) := by
  unfold updateSourceBlockSize
  split
  · next hsame =>
    exact ⟨{ refl r with
      frame := rfl
      source := fun _ => ⟨rfl, rfl⟩
      flags := fun hflags hset => ⟨rfl, (hflags hset).2⟩ }, fun _ => ⟨hsame, rfl, rfl, rfl, rfl⟩⟩
  · next hsame =>
    have hfree := h.resolve_left hsame
    split
    · exact ⟨{ refl r with frame := rfl, flags := fun h => h, alive := fun h => by cases h }, fun h => by cases h⟩
    · refine ⟨{ refl r with
        frame := rfl
        source := fun hset => by rw [hfree] at hset; cases hset
        flags := fun hflags hset => ⟨rfl, (hflags hset).2⟩
        source_mem := fun p => mem_of_mem_resize
        source_pos := fun _ => (length_resize _ n).symm ▸ hn }, fun _ => ⟨length_resize _ n, rfl, rfl, rfl, rfl⟩⟩

structure SizedFor (r : Reader) (fec : Packet.Fec) : Prop where
  payload : r.payloadResized = true
  payload_eq : r.payloadSize = fec.payload.length
  source : r.sourceBlockResized = true
  source_eq : r.sourceBlock.length = fec.sourceBlockLength

theorem processSourcePacket_spec (r : Reader) (fec : Packet.Fec) : Resized r (r.processSourcePacket E fec).1 ∧
      ((r.processSourcePacket E fec).2 = true →
        SizedFor (r.processSourcePacket E fec).1 fec ∧ fec.encodingSymbolId < fec.sourceBlockLength) := by
  unfold processSourcePacket
  split
  · exact ⟨.refl r, fun h => by cases h⟩
  · next hvalid =>
    split
    · exact ⟨.refl r, fun h => by cases h⟩
    · next hpayload =>
      simp only [Bool.not_eq_true', Bool.not_eq_false] at hvalid hpayload
      have hlt : fec.encodingSymbolId < fec.sourceBlockLength := by
        simp only [validateIncomingSourcePacket, Bool.and_eq_true, decide_eq_true_eq] at hvalid
        exact hvalid.1.1.1
      obtain ⟨hresized, hcan⟩ := canUpdateSize_spec (E := E) (r := r)
        (r.sourceBlock.length = fec.sourceBlockLength) r.sourceBlockResized fec.sourceBlockLength
      unfold canUpdateSourceBlockSize
      generalize hcheck : r.canUpdateSize E (r.sourceBlock.length = fec.sourceBlockLength) r.sourceBlockResized
        fec.sourceBlockLength = check at hresized hcan
      obtain ⟨r1, ok⟩ := check
      cases ok with
      | false => exact ⟨hresized, fun h => by cases h⟩
      | true =>
        obtain ⟨rfl, hsame⟩ := hcan rfl
        have hpre : r1.sourceBlock.length = fec.sourceBlockLength ∨ r1.sourceBlockResized = false :=
          hsame.imp_left of_decide_eq_true
        obtain ⟨hsource, hdone⟩ := updateSourceBlockSize_spec (E := E)
          (r := r1.updatePayloadSize fec.payload.length) (by omega) hpre
        refine ⟨(updatePayloadSize_resized hpayload).trans hsource, fun htrue => ⟨?_, hlt⟩⟩
        obtain ⟨hlen, hset, hpset, hpsize, -⟩ := hdone htrue
        exact ⟨hpset, hpsize, hset, hlen⟩

theorem updateRepairBlockSize_spec {ok : Bool} (hs : SizedFor r fec)
    (h : n = r.sourceBlock.length + r.repairBlock.length ∨ r.repairBlockResized = false)
    (heq : r.updateRepairBlockSize E n = .ok (r', ok)) :
    Resized r r' ∧ SizedFor r' fec ∧
      (ok = true → r'.repairBlockResized = true ∧ n = r'.sourceBlock.length + r'.repairBlock.length) := by
  unfold updateRepairBlockSize at heq
  split at heq
  · next hsame =>
    cases heq
    exact ⟨{ refl r with
      frame := rfl
      repair := fun _ => ⟨rfl, rfl⟩
      flags := fun _ _ => ⟨hs.source, hs.payload⟩ }, { hs with }, fun _ => ⟨rfl, hsame⟩⟩
  · next hsame =>
    split at heq
    · cases heq
    · next hgt =>
      split at heq
      · cases heq
        exact ⟨{ refl r with frame := rfl, flags := fun h => h, alive := fun h => by cases h }, { hs with }, fun h => by cases h⟩
      · cases heq
        have hfree := h.resolve_left hsame
        refine ⟨{ refl r with
          frame := rfl
          repair := fun hset => by rw [hfree] at hset; cases hset
          repair_mem := fun p => mem_of_mem_resize
          flags := fun _ _ => ⟨hs.source, hs.payload⟩ }, { hs with }, fun _ => ⟨rfl, ?_⟩⟩
        show n = r.sourceBlock.length + (resize r.repairBlock (n - r.sourceBlock.length)).length
        rw [length_resize]
        omega

theorem updateRepairBlockSize_returns (hn : r.sourceBlock.length < n) :
    ∃ r' ok, r.updateRepairBlockSize E n = .ok (r', ok) := by
  unfold updateRepairBlockSize
  rw [if_neg (not_not.mpr hn)]
  split
  · exact ⟨_, _, rfl⟩
  · split <;> exact ⟨_, _, rfl⟩

/-- What `process_repair_packet_` has done up to its last step: nothing, or all sizes but that of the repair block. -/
theorem processRepairPacket_cases (fec : Packet.Fec) (hflags : r.FlagsOrdered) :
    (∃ r1, r.processRepairPacket E fec = .ok (r1, false) ∧ Resized r r1) ∨
      ∃ r1, r.processRepairPacket E fec = r1.updateRepairBlockSize E fec.blockLength ∧ Resized r r1 ∧
        SizedFor r1 fec ∧ validateIncomingRepairPacket fec = true ∧
        (fec.blockLength = r1.sourceBlock.length + r1.repairBlock.length ∨ r1.repairBlockResized = false) := by
  unfold processRepairPacket
  split
  · exact .inl ⟨r, rfl, .refl r⟩
  · next hvalid =>
    split
    · exact .inl ⟨r, rfl, .refl r⟩
    · next hpayload =>
      simp only [Bool.not_eq_true', Bool.not_eq_false] at hvalid hpayload
      have hpos : 0 < fec.sourceBlockLength := by
        simp only [validateIncomingRepairPacket, Bool.and_eq_true, decide_eq_true_eq] at hvalid
        omega
      obtain ⟨hresized, hcan⟩ := canUpdateSize_spec (E := E) (r := r)
        (r.sourceBlock.length = fec.sourceBlockLength) r.sourceBlockResized fec.sourceBlockLength
      unfold canUpdateSourceBlockSize
      generalize r.canUpdateSize E (r.sourceBlock.length = fec.sourceBlockLength) r.sourceBlockResized
        fec.sourceBlockLength = check at hresized hcan
      obtain ⟨r1, ok⟩ := check
      cases ok with
      | false => exact .inl ⟨r1, rfl, hresized⟩
      | true =>
        obtain ⟨rfl, hsame⟩ := hcan rfl
        obtain ⟨hresized2, hcan2⟩ := canUpdateSize_spec (E := E) (r := r1)
          (fec.blockLength = r1.sourceBlock.length + r1.repairBlock.length) r1.repairBlockResized fec.blockLength
        unfold canUpdateRepairBlockSize
        dsimp only
        generalize r1.canUpdateSize E (fec.blockLength = r1.sourceBlock.length + r1.repairBlock.length)
          r1.repairBlockResized fec.blockLength = check at hresized2 hcan2
        obtain ⟨r2, ok⟩ := check
        cases ok with
        | false => exact .inl ⟨r2, rfl, hresized2⟩
        | true =>
          obtain ⟨rfl, hsameRepair⟩ := hcan2 rfl
          obtain ⟨hsource, hdone⟩ := updateSourceBlockSize_spec (E := E)
            (r := r2.updatePayloadSize fec.payload.length) hpos (hsame.imp_left of_decide_eq_true)
          dsimp only
          generalize (r2.updatePayloadSize fec.payload.length).updateSourceBlockSize E fec.sourceBlockLength = update
            at hsource hdone
          obtain ⟨r3, ok⟩ := update
          have hall := (updatePayloadSize_resized hpayload).trans hsource
          cases ok with
          | false => exact .inl ⟨r3, rfl, hall⟩
          | true =>
            obtain ⟨hlen, hset, hpset, hpsize, hrepair⟩ := hdone rfl
            refine .inr ⟨r3, rfl, hall, ⟨hpset, hpsize, hset, hlen⟩, hvalid, ?_⟩
            cases hfree : r2.repairBlockResized with
            | false => exact .inr (hrepair.trans hfree)
            | true =>
              obtain ⟨hsourceBlock, -⟩ := hall.source (hflags hfree).1
              obtain ⟨hrepairBlock, -⟩ := hall.repair hfree
              rw [hsourceBlock, hrepairBlock]
              exact .inl (of_decide_eq_true (hsameRepair.resolve_right (by simp [hfree])))

theorem processRepairPacket_spec (hflags : r.FlagsOrdered) {ok : Bool}
    (heq : r.processRepairPacket E fec = .ok (r', ok)) :
    Resized r r' ∧ (ok = true → SizedFor r' fec ∧ r'.repairBlockResized = true ∧
      fec.sourceBlockLength ≤ fec.encodingSymbolId ∧
      fec.encodingSymbolId - fec.sourceBlockLength < r'.repairBlock.length) := by
  rcases processRepairPacket_cases (E := E) fec hflags with
    ⟨r1, hfalse, hresized⟩ | ⟨r1, hlast, hresized, hsized, hvalid, hpre⟩
  · rw [hfalse] at heq
    cases heq
    exact ⟨hresized, fun h => by cases h⟩
  · rw [hlast] at heq
    obtain ⟨hresized', hsized', hdone⟩ := updateRepairBlockSize_spec hsized hpre heq
    refine ⟨hresized.trans hresized', fun hok => ?_⟩
    obtain ⟨hset, hlen⟩ := hdone hok
    simp only [validateIncomingRepairPacket, Bool.and_eq_true, Bool.or_eq_true, decide_eq_true_eq] at hvalid
    have hsrc := hsized'.source_eq
    exact ⟨hsized', hset, hvalid.1.1.1, by omega⟩

theorem processRepairPacket_returns (hflags : r.FlagsOrdered) (hblen : fec.blockLength ≠ 0) :
    ∃ r' ok, r.processRepairPacket E fec = .ok (r', ok) := by
  rcases processRepairPacket_cases (E := E) fec hflags with
    ⟨r1, hfalse, -⟩ | ⟨r1, hlast, -, hsized, hvalid, -⟩
  · exact ⟨r1, false, hfalse⟩
  · rw [hlast]
    simp only [validateIncomingRepairPacket, Bool.and_eq_true, Bool.or_eq_true, decide_eq_true_eq] at hvalid
    have hsrc := hsized.source_eq
    exact updateRepairBlockSize_returns (by omega)

/-! ## Invariant -/

structure Received (p : BlockPacket) : Prop where
  fec : ∃ fec, p.fec = some fec
  restored : p.restored = false

structure InPlace (r : Reader) (i : Nat) (p : BlockPacket) : Prop where
  restored : p.restored = false
  fec : ∃ fec, p.fec = some fec ∧ fec.payload.length = r.payloadSize ∧ fec.sourceBlockNumber = r.curSbn ∧
    fec.encodingSymbolId = i

/-- `R` is what is known of packets that were restored. -/
structure Inv (R : BlockPacket → Prop) (r : Reader) : Prop where
  sourceQueue : ∀ p ∈ r.sourceQueue, Received p
  repairQueue : ∀ p ∈ r.repairQueue, Received p
  source : ∀ (i : Nat) (p : BlockPacket), r.sourceBlock[i]? = some (some p) → InPlace r i p ∨ (p.restored = true ∧ R p)
  repair : ∀ p, some p ∈ r.repairBlock → ∃ fec, p.fec = some fec ∧ fec.payload.length = r.payloadSize
  settled : ¬ Vacant r.sourceBlock ∨ r.nextPacket ≠ 0 → r.sourceBlockResized = true ∧ r.payloadResized = true
  repair_settled : ¬ Vacant r.repairBlock → r.repairBlockResized = true
  flags : FlagsOrdered r
  unstarted : r.started = false → Vacant r.sourceBlock ∧ Vacant r.repairBlock ∧ r.nextPacket = 0
  cursor : r.started = true → r.nextPacket < r.sourceBlock.length

variable {R : BlockPacket → Prop}

theorem inv_initial : Inv R {} where
  sourceQueue p hp := by cases hp
  repairQueue p hp := by cases hp
  source i p hp := by cases hp
  repair p hp := by cases hp
  settled h := h.elim (fun hne => absurd (fun place hplace => by cases hplace) hne) (fun hne => absurd rfl hne)
  repair_settled h := absurd (fun place hplace => by cases hplace) h
  flags h := by cases h
  unstarted _ := ⟨fun place hplace => (by cases hplace), fun place hplace => (by cases hplace), rfl⟩
  cursor h := by cases h

theorem not_vacant {i : Nat} (hp : block[i]? = some (some p)) :
    ¬ Vacant block := fun hvacant => vacant_iff.mp hvacant i p hp

theorem not_vacant_of_mem (hp : some p ∈ block) : ¬ Vacant block := fun hvacant => absurd (hvacant _ hp) (by simp)

theorem Inv.resized (hinv : Inv R r) (hres : Resized r r') : Inv R r' := by
  -- a block that has packets has its sizes, and they stay
  have hsettled : ¬ Vacant r'.sourceBlock ∨ r'.nextPacket ≠ 0 → r.sourceBlockResized = true ∧ r.payloadResized = true :=
    fun h => hinv.settled (h.imp (mt hres.source_vacant) (hres.nextPacket ▸ ·))
  have hrepairSettled : ¬ Vacant r'.repairBlock → r.repairBlockResized = true :=
    fun h => hinv.repair_settled (mt hres.repair_vacant h)
  refine {
    sourceQueue := hres.sourceQueue ▸ hinv.sourceQueue
    repairQueue := hres.repairQueue ▸ hinv.repairQueue
    source := fun i p hp => ?_
    repair := fun p hp => ?_
    settled := fun h => ⟨(hres.source (hsettled h).1).2, (hres.payload (hsettled h).2).2⟩
    repair_settled := fun h => (hres.repair (hrepairSettled h)).2
    flags := hres.flags hinv.flags
    unstarted := fun h => ?_
    cursor := fun h => ?_ }
  · obtain ⟨hsource, hpayload⟩ := hsettled (.inl (not_vacant hp))
    rw [(hres.source hsource).1] at hp
    exact (hinv.source i p hp).imp_left fun hplace =>
      ⟨hplace.restored, by rw [(hres.payload hpayload).1, hres.curSbn]; exact hplace.fec⟩
  · have hrepair := hrepairSettled (not_vacant_of_mem hp)
    rw [(hres.repair hrepair).1] at hp
    rw [(hres.payload (hinv.flags hrepair).2).1]
    exact hinv.repair p hp
  · obtain ⟨hsource, hrepair, hzero⟩ := hinv.unstarted (hres.started ▸ h)
    exact ⟨hres.source_vacant hsource, hres.repair_vacant hrepair, hres.nextPacket.trans hzero⟩
  · rw [hres.nextPacket]
    have hlt := hinv.cursor (hres.started ▸ h)
    by_cases hzero : r.nextPacket = 0
    · rw [hzero]
      exact hres.source_pos (by omega)
    · rw [(hres.source (hinv.settled (.inr hzero)).1).1]
      exact hlt

/-! ## Filling the block -/

theorem diff16_eq_zero {a b : UInt16} : diff16 a b = 0 ↔ a = b := by
  unfold diff16
  rw [← BitVec.toInt_zero (w := 16), BitVec.toInt_inj, ← UInt16.toBitVec_zero, UInt16.toBitVec_inj]
  exact ⟨fun h => by simpa using congrArg (· + b) h, fun h => by rw [h, UInt16.sub_self]⟩

structure Filled (r r' : Reader) : Prop where
  alive : r'.alive = true → r.alive = true
  started : r'.started = r.started
  nextPacket : r'.nextPacket = r.nextPacket
  curSbn : r'.curSbn = r.curSbn
  blocks : r'.blocks = r.blocks
  sourceQueue : r'.sourceQueue <+: r.sourceQueue
  repairQueue : r'.repairQueue <+: r.repairQueue
  -- packets are added where there are none, and none of them is restored
  restored : ∀ p, some p ∈ r'.sourceBlock → p.restored = true → some p ∈ r.sourceBlock
  complete : Complete r.sourceBlock → Complete r'.sourceBlock

theorem Filled.refl (r : Reader) : Filled r r :=
  ⟨id, rfl, rfl, rfl, rfl, prefix_refl _, prefix_refl _, fun _ hp _ => hp, id⟩

theorem Filled.trans (h1 : Filled r1 r2) (h2 : Filled r2 r3) : Filled r1 r3 :=
  ⟨h1.alive ∘ h2.alive, h2.started.trans h1.started, h2.nextPacket.trans h1.nextPacket, h2.curSbn.trans h1.curSbn,
    h2.blocks.trans h1.blocks, h2.sourceQueue.trans h1.sourceQueue, h2.repairQueue.trans h1.repairQueue,
    fun p hp hr => h1.restored p (h2.restored p hp hr) hr, h2.complete ∘ h1.complete⟩

section
variable (hinv : Inv R r)
include hinv

theorem Inv.filled (h : Resized r r') : Filled r r' where
  alive := h.alive
  started := h.started
  nextPacket := h.nextPacket
  curSbn := h.curSbn
  blocks := by rw [h.frame]
  sourceQueue := h.sourceQueue ▸ prefix_refl _
  repairQueue := h.repairQueue ▸ prefix_refl _
  restored p hp _ := h.source_mem p hp
  complete hc := (h.source (hinv.settled (.inl hc.not_vacant)).1).1 ▸ hc

theorem Inv.requeue {alive : Bool} {sourceQueue repairQueue : SortedQueue}
    (hsource : ∀ p ∈ sourceQueue, Received p) (hrepair : ∀ p ∈ repairQueue, Received p) :
    Inv R { r with alive, sourceQueue, repairQueue } :=
  { hinv with
    sourceQueue := hsource
    repairQueue := hrepair
    source := fun i p hp => (hinv.source i p hp).imp_left fun hplace => { hplace with }
    flags := hinv.flags }

theorem Inv.popSource : Inv R { r with sourceQueue := r.sourceQueue.dropLast } :=
  hinv.requeue (fun p hp => hinv.sourceQueue p (dropLast_subset _ hp)) hinv.repairQueue

theorem Inv.popRepair : Inv R { r with repairQueue := r.repairQueue.dropLast } :=
  hinv.requeue hinv.sourceQueue (fun p hp => hinv.repairQueue p (dropLast_subset _ hp))

end

theorem filled_popSource (r : Reader) : Filled r { r with sourceQueue := r.sourceQueue.dropLast } :=
  { Filled.refl r with sourceQueue := dropLast_prefix _ }

theorem filled_popRepair (r : Reader) : Filled r { r with repairQueue := r.repairQueue.dropLast } :=
  { Filled.refl r with repairQueue := dropLast_prefix _ }

theorem Inv.putSource (hinv : Inv R r) (hstarted : r.started = true) (hpp : Received pp)
    (hfec : pp.fec = some fec) (hsbn : fec.sourceBlockNumber = r.curSbn) (hs : SizedFor r fec) :
    Inv R { r with canRepair := true, sourceBlock := r.sourceBlock.set fec.encodingSymbolId (some pp) } :=
  { hinv with
    source := fun i p hp => by
      rw [List.getElem?_set] at hp
      split at hp
      · next hi =>
        split at hp
        · cases hp
          exact .inl ⟨hpp.restored, fec, hfec, hs.payload_eq.symm, hsbn, hi⟩
        · cases hp
      · exact (hinv.source i p hp).imp_left fun hplace => { hplace with }
    settled := fun _ => ⟨hs.source, hs.payload⟩
    flags := hinv.flags
    unstarted := fun h => by rw [show r.started = false from h] at hstarted; cases hstarted
    cursor := fun h => by rw [length_set]; exact hinv.cursor h }

theorem Filled.putSource (h : Filled r r') {i : Nat} {hi : i < r'.sourceBlock.length}
    (hplace : r'.sourceBlock[i] = none) (hpp : Received pp) :
    Filled r { r' with canRepair := true, sourceBlock := r'.sourceBlock.set i (some pp) } :=
  { h with
    restored := fun p hp hr => by
      rcases mem_or_eq_of_mem_set hp with hold | hnew
      · exact h.restored p hold hr
      · cases hnew
        rw [hpp.restored] at hr
        cases hr
    complete := fun hc => absurd hplace ((h.complete hc).present _ (getElem_mem hi)) }

theorem Inv.putRepair (hinv : Inv R r) (hstarted : r.started = true) (hfec : pp.fec = some fec)
    (hs : SizedFor r fec) (hset : r.repairBlockResized = true) (i : Nat) :
    Inv R { r with canRepair := true, repairBlock := r.repairBlock.set i (some pp) } :=
  { hinv with
    source := fun i p hp => (hinv.source i p hp).imp_left fun hplace => { hplace with }
    repair := fun p hp => by
      rcases mem_or_eq_of_mem_set hp with hold | hnew
      · exact hinv.repair p hold
      · cases hnew
        exact ⟨fec, hfec, hs.payload_eq.symm⟩
    repair_settled := fun _ => hset
    flags := hinv.flags
    unstarted := fun h => by rw [show r.started = false from h] at hstarted; cases hstarted }

/-- The head of the source queue is of a later block, or the reader is dead. -/
def Waits (r : Reader) : Prop :=
  r.alive = true → ∀ pp fec, r.sourceQueue.head = some pp → pp.fec = some fec → 0 < diff16 fec.sourceBlockNumber r.curSbn

theorem dropLast_shorter (hmem : pp ∈ queue) : queue.dropLast.length < queue.length := by
  have := length_pos_of_mem hmem
  rw [length_dropLast]
  omega

theorem eq_of_blknumLe {a b : UInt16} (hle : (!blknumLe a b) ≠ true) (hlt : blknumLt a b ≠ true) : a = b := by
  refine diff16_eq_zero.mp ?_
  simp only [blknumLe, blknumLt, ne_eq, Bool.not_eq_true', decide_eq_false_iff_not, decide_eq_true_eq, not_not] at hle hlt
  omega

theorem validateSbnSequence_spec (r : Reader) (fec : Packet.Fec) : Resized r (r.validateSbnSequence E fec).1 ∧
    ((r.validateSbnSequence E fec).2 = true → (r.validateSbnSequence E fec).1 = r) ∧
    ((r.validateSbnSequence E fec).2 = false → (r.validateSbnSequence E fec).1.alive = false) := by
  unfold validateSbnSequence
  split
  · exact ⟨.dead r, fun h => (by cases h), fun _ => rfl⟩
  · exact ⟨.refl r, fun _ => rfl, fun h => by cases h⟩

theorem fillSourceRound_spec (hinv : Inv R r) (hstarted : r.started = true) :
    (∃ r', fillSourceRound E r = .ok (.leave r') ∧ Inv R r' ∧ Filled r r' ∧ Waits r') ∨
      ∃ r', fillSourceRound E r = .ok (.again r') ∧ Inv R r' ∧ Filled r r' ∧
        r'.sourceQueue.length < r.sourceQueue.length := by
  unfold fillSourceRound
  cases hhead : r.sourceQueue.head with
  | none => exact .inl ⟨r, rfl, hinv, .refl r, fun _ pp fec hpp => by rw [hhead] at hpp; cases hpp⟩
  | some pp =>
    have hmem : pp ∈ r.sourceQueue := mem_of_getLast? hhead
    have hpp := hinv.sourceQueue pp hmem
    obtain ⟨fec, hfec⟩ := hpp.fec
    have hlen := dropLast_shorter hmem
    simp only [hfec]
    obtain ⟨hresized, hvalid, hinvalid⟩ := validateSbnSequence_spec (E := E) r fec
    generalize r.validateSbnSequence E fec = check at hresized hvalid hinvalid
    obtain ⟨r1, valid⟩ := check
    cases valid with
    | false =>
      refine .inl ⟨r1, rfl, hinv.resized hresized, hinv.filled hresized, fun halive => ?_⟩
      rw [hinvalid rfl] at halive
      cases halive
    | true =>
      cases hvalid rfl
      dsimp only
      split
      · next hle =>
        refine .inl ⟨r1, rfl, hinv, .refl r1, fun _ pp' fec' hpp' hfec' => ?_⟩
        cases hhead.symm.trans hpp'
        cases hfec.symm.trans hfec'
        simpa [blknumLe] using hle
      · next hle =>
        refine .inr ?_
        split
        · exact ⟨_, rfl, hinv.popSource, filled_popSource r1, hlen⟩
        · next hlt =>
          have hsbn := eq_of_blknumLe hle hlt
          rw [if_neg (not_not.mpr hsbn)]
          obtain ⟨hresized, hsized⟩ := processSourcePacket_spec (E := E)
            { r1 with sourceQueue := r1.sourceQueue.dropLast } fec
          generalize processSourcePacket E { r1 with sourceQueue := r1.sourceQueue.dropLast } fec = done
            at hresized hsized
          obtain ⟨r2, ok⟩ := done
          have hinv2 := hinv.popSource.resized hresized
          have hfilled := (filled_popSource r1).trans (hinv.popSource.filled hresized)
          have hlen2 : r2.sourceQueue.length < r1.sourceQueue.length := hresized.sourceQueue ▸ hlen
          cases ok with
          | false => exact ⟨r2, rfl, hinv2, hfilled, hlen2⟩
          | true =>
            obtain ⟨hsized, hesi⟩ := hsized rfl
            dsimp only
            rw [if_neg (not_not.mpr hsized.source_eq.symm)]
            rw [← hsized.source_eq] at hesi
            rw [List.getElem?_eq_getElem hesi]
            cases hplace : r2.sourceBlock[fec.encodingSymbolId] with
            | some p => exact ⟨r2, rfl, hinv2, hfilled, hlen2⟩
            | none =>
              exact ⟨_, rfl, hinv2.putSource (hfilled.started.trans hstarted) hpp hfec
                (hsbn.trans hfilled.curSbn.symm) hsized, hfilled.putSource hplace hpp, hlen2⟩

def Sized (queue : SortedQueue) : Prop := ∀ p ∈ queue, ∀ fec, p.fec = some fec → fec.blockLength ≠ 0

/-- A round of `fill_repair_block_` fails on a packet without block length at most. -/
theorem fillRepairRound_spec (hinv : Inv R r) (hstarted : r.started = true) :
    (∃ r', fillRepairRound E r = .ok (.leave r') ∧ Inv R r' ∧ Filled r r' ∧ r'.sourceQueue = r.sourceQueue) ∨
      (∃ r', fillRepairRound E r = .ok (.again r') ∧ Inv R r' ∧ Filled r r' ∧ r'.sourceQueue = r.sourceQueue ∧
        r'.repairQueue.length < r.repairQueue.length) ∨
      ((∃ fault, fillRepairRound E r = .error fault) ∧ ¬ Sized r.repairQueue) := by
  unfold fillRepairRound
  cases hhead : r.repairQueue.head with
  | none => exact .inl ⟨r, rfl, hinv, .refl r, rfl⟩
  | some pp =>
    have hmem : pp ∈ r.repairQueue := mem_of_getLast? hhead
    obtain ⟨fec, hfec⟩ := (hinv.repairQueue pp hmem).fec
    have hlen := dropLast_shorter hmem
    simp only [hfec]
    obtain ⟨hresized, hvalid, -⟩ := validateSbnSequence_spec (E := E) r fec
    generalize r.validateSbnSequence E fec = check at hresized hvalid
    obtain ⟨r1, valid⟩ := check
    cases valid with
    | false =>
      exact .inl ⟨r1, rfl, hinv.resized hresized, hinv.filled hresized, hresized.sourceQueue⟩
    | true =>
      cases hvalid rfl
      dsimp only
      split
      · exact .inl ⟨r1, rfl, hinv, .refl r1, rfl⟩
      · next hle =>
        split
        · exact .inr (.inl ⟨_, rfl, hinv.popRepair, filled_popRepair r1, rfl, hlen⟩)
        · next hlt =>
          rw [if_neg (not_not.mpr (eq_of_blknumLe hle hlt))]
          have hinv1 := hinv.popRepair
          cases hprocess : processRepairPacket E { r1 with repairQueue := r1.repairQueue.dropLast } fec with
          | error fault =>
            refine .inr (.inr ⟨⟨fault, rfl⟩, fun hsized => ?_⟩)
            obtain ⟨r', ok, hok⟩ := processRepairPacket_returns (E := E) hinv1.flags (hsized pp hmem fec hfec)
            rw [hprocess] at hok
            cases hok
          | ok done =>
            refine .inr (.inl ?_)
            obtain ⟨r2, ok⟩ := done
            obtain ⟨hresized, hsized⟩ := processRepairPacket_spec hinv1.flags hprocess
            have hinv2 := hinv1.resized hresized
            have hfilled := (filled_popRepair r1).trans (hinv1.filled hresized)
            have hlen2 : r2.repairQueue.length < r1.repairQueue.length := hresized.repairQueue ▸ hlen
            cases ok with
            | false => exact ⟨r2, rfl, hinv2, hfilled, hresized.sourceQueue, hlen2⟩
            | true =>
              obtain ⟨hsized, hset, hge, hplace⟩ := hsized rfl
              dsimp only
              rw [if_neg (not_not.mpr hsized.source_eq.symm), if_neg (not_not.mpr (hsized.source_eq ▸ hge)),
                List.getElem?_eq_getElem hplace]
              cases hp : r2.repairBlock[fec.encodingSymbolId - fec.sourceBlockLength] with
              | some p => exact ⟨r2, rfl, hinv2, hfilled, hresized.sourceQueue, hlen2⟩
              | none =>
                exact ⟨_, rfl, hinv2.putRepair (hfilled.started.trans hstarted) hfec hsized hset _, { hfilled with },
                  hresized.sourceQueue, hlen2⟩

theorem fillSourceBlock_spec (hinv : Inv R r) (hstarted : r.started = true) :
    ∃ r', r.fillSourceBlock E = .ok r' ∧ Inv R r' ∧ Filled r r' ∧ Waits r' := by
  refine Loop.repeatUntil_total (I := fun s => Inv R s ∧ Filled r s) (μ := fun s => s.sourceQueue.length)
    (fun s ⟨hs, hfilled⟩ => ?_) _ r ⟨hinv, .refl r⟩ (Nat.lt_succ_self _)
  rcases fillSourceRound_spec (E := E) hs (hfilled.started.trans hstarted) with
    ⟨s', heq, hs', hfilled', hwaits⟩ | ⟨s', heq, hs', hfilled', hlen⟩
  · exact .inl ⟨s', heq, hs', hfilled.trans hfilled', hwaits⟩
  · exact .inr ⟨s', heq, ⟨hs', hfilled.trans hfilled'⟩, hlen⟩

theorem Sized.front {queue' : SortedQueue} (hsized : Sized queue) (hpre : queue' <+: queue) : Sized queue' :=
  fun p hp => hsized p (hpre.subset hp)

section
variable (hinv : Inv R r) (hstarted : r.started = true)
include hinv hstarted

theorem fillRepairBlock_returns (hsized : Sized r.repairQueue) : ∃ r', r.fillRepairBlock E = .ok r' := by
  have htotal : ∃ r', r.fillRepairBlock E = .ok r' ∧ True := by
    refine Loop.repeatUntil_total (I := fun s => Inv R s ∧ Filled r s) (μ := fun s => s.repairQueue.length)
      (fun s ⟨hs, hfilled⟩ => ?_) _ r ⟨hinv, .refl r⟩ (Nat.lt_succ_self _)
    rcases fillRepairRound_spec (E := E) hs (hfilled.started.trans hstarted) with
      ⟨s', heq, -⟩ | ⟨s', heq, hs', hfilled', -, hlen⟩ | ⟨-, hnot⟩
    · exact .inl ⟨s', heq, trivial⟩
    · exact .inr ⟨s', heq, ⟨hs', hfilled.trans hfilled'⟩, hlen⟩
    · exact absurd (hsized.front hfilled.repairQueue) hnot
  exact htotal.imp fun r' h => h.1

theorem fillRepairBlock_spec (heq : r.fillRepairBlock E = .ok r') :
    Inv R r' ∧ Filled r r' ∧ r'.sourceQueue = r.sourceQueue := by
  refine Loop.repeatUntil_keeps (I := fun s => Inv R s ∧ Filled r s ∧ s.sourceQueue = r.sourceQueue)
    (Q := fun s => Inv R s ∧ Filled r s ∧ s.sourceQueue = r.sourceQueue)
    (fun s s' ⟨hs, hfilled, hqueue⟩ h => ?_) (fun s s' ⟨hs, hfilled, hqueue⟩ h => ?_) ⟨hinv, .refl r, rfl⟩ heq
  all_goals
    rcases fillRepairRound_spec (E := E) hs (hfilled.started.trans hstarted) with
      ⟨s1, h1, hs', hfilled', hqueue'⟩ | ⟨s1, h1, hs', hfilled', hqueue', -⟩ | ⟨⟨fault, h1⟩, -⟩ <;>
    cases h.symm.trans h1
    exact ⟨hs', hfilled.trans hfilled', hqueue'.trans hqueue⟩

/-- `fill_block_` fails on a repair packet without block length at most. -/
theorem fillBlock_spec : (∃ r', r.fillBlock E = .ok r' ∧ Inv R r' ∧ Filled r r' ∧ Waits r') ∨
      ((∃ fault, r.fillBlock E = .error fault) ∧ ¬ Sized r.repairQueue) := by
  obtain ⟨r1, heq1, hinv1, hfilled1, hwaits⟩ := fillSourceBlock_spec (E := E) hinv hstarted
  have hstarted1 := hfilled1.started.trans hstarted
  unfold fillBlock
  rw [heq1, ok_bind]
  cases heq : r1.fillRepairBlock E with
  | ok r' =>
    obtain ⟨hinv', hfilled', hqueue⟩ := fillRepairBlock_spec hinv1 hstarted1 heq
    refine .inl ⟨r', rfl, hinv', hfilled1.trans hfilled', fun halive pp fec hpp hfec => ?_⟩
    rw [hqueue] at hpp
    rw [hfilled'.curSbn]
    exact hwaits (hfilled'.alive halive) pp fec hpp hfec
  | error fault =>
    refine .inr ⟨⟨fault, rfl⟩, fun hsized => ?_⟩
    obtain ⟨r', hok⟩ := fillRepairBlock_returns (E := E) hinv1 hstarted1 (hsized.front hfilled1.repairQueue)
    rw [heq] at hok
    cases hok

end

/-- `next_block_` before it fills the block. -/
def cleared (r : Reader) : Reader :=
  { r with
    sourceBlock := List.replicate r.sourceBlock.length none
    repairBlock := List.replicate r.repairBlock.length none
    curSbn := r.curSbn + 1
    nextPacket := 0
    sourceBlockResized := false
    repairBlockResized := false
    payloadResized := false
    canRepair := false
    blocks := r.blocks + 1 }

theorem Inv.cleared (hinv : Inv R r) : Inv R r.cleared where
  sourceQueue := hinv.sourceQueue
  repairQueue := hinv.repairQueue
  source i p hp := absurd hp (vacant_iff.mp (vacant_replicate _) i p)
  repair p hp := absurd (vacant_replicate _ _ hp) (by simp)
  settled h := h.elim (fun hne => absurd (vacant_replicate _) hne) (fun hne => absurd rfl hne)
  repair_settled h := absurd (vacant_replicate _) h
  flags h := by cases h
  unstarted _ := ⟨vacant_replicate _, vacant_replicate _, rfl⟩
  cursor h := by
    show 0 < (List.replicate r.sourceBlock.length none).length
    have := hinv.cursor h
    rw [length_replicate]
    omega

theorem nextBlock_spec (hinv : Inv R r) (hstarted : r.started = true) :
    (∃ r', r.nextBlock E = .ok r' ∧ Inv R r' ∧ Filled r.cleared r' ∧ Waits r') ∨
      ((∃ fault, r.nextBlock E = .error fault) ∧ ¬ Sized r.repairQueue) :=
  fillBlock_spec (r := r.cleared) hinv.cleared hstarted

end Roc.Fec.Reader
