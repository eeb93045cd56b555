import RocToolkit.Fec.Writer

/-!
# RocToolkit.Fec.WriterCorrect

What `fec::Writer` is for: a stream of packets is cut into blocks. `Stream` says so without the state of the writer: a
block has the sizes that were in effect at its first packet, its packets go out in the order they came, numbered from 0,
and are followed by the repair packets. The writer produces exactly the output of the stream.
-/

namespace Roc.Fec

open List Writer

/-- A block of the stream: its sizes, and the source packets it has so far. -/
structure Block where
  sblen : Nat
  rblen : Nat
  sources : List OutPacket := []
deriving DecidableEq, Repr

namespace Block

variable (E : WriterEnv)

/-- The FEC fields of the packet `esi` of block `sbn`. -/
def stamp (b : Block) (sbn : UInt16) (esi : Nat) (fec : Packet.Fec) : Packet.Fec :=
  { fec with
    encodingSymbolId := esi, sourceBlockNumber := sbn, sourceBlockLength := b.sblen
    blockLength := b.sblen + b.rblen }

/-- The source packets as they go out. -/
def sourceOutput (b : Block) (sbn : UInt16) : List OutPacket :=
  b.sources.mapIdx fun i pp => { pp with fec := pp.fec.map (b.stamp sbn i), composed := true }

def payloads (b : Block) : List (List UInt8) := b.sources.map fun pp => (pp.fec.map Packet.Fec.payload).getD []

def repairOutput (b : Block) (number : Nat) (sbn : UInt16) : List OutPacket :=
  (List.range b.rblen).filterMap fun i => (E.newPacket number i).map fun packet =>
    { toPacket := { packet with
        fec := packet.fec.map fun fec =>
          { b.stamp sbn (b.sblen + i) fec with payload := E.encode b.payloads b.rblen i } }
      prepared := true
      composed := true }

end Block

structure Stream where
  /-- the sizes of the next block -/
  sblen : Nat
  rblen : Nat
  blocks : List Block := []
  /-- the block that is not full yet -/
  current : Option Block := none
deriving DecidableEq, Repr

namespace Stream

variable (E : WriterEnv)

def resize (s : Stream) (sblen rblen : Nat) : Stream :=
  if sblen ≠ 0 ∧ sblen + rblen ≤ E.maxBlockLength then { s with sblen, rblen } else s

def write (s : Stream) (pp : OutPacket) : Stream :=
  let block := s.current.getD { sblen := s.sblen, rblen := s.rblen }
  let block := { block with sources := block.sources ++ [pp] }
  if block.sources.length = block.sblen then { s with blocks := s.blocks ++ [block], current := none }
  else { s with current := some block }

def output (s : Stream) (start : UInt16) : List OutPacket := (s.blocks.mapIdx fun k b =>
    b.sourceOutput (start + UInt16.ofNat k) ++ b.repairOutput E (k + 1) (start + UInt16.ofNat k)).flatten ++
  ((s.current.map fun b => b.sourceOutput (start + UInt16.ofNat s.blocks.length)).getD [])

end Stream

namespace Writer

inductive Call where
  | write (pp : OutPacket)
  | resize (sblen rblen : Nat)
deriving DecidableEq, Repr

def call (E : WriterEnv) (w : Writer) : Call → Except Fault Writer
  | .write pp => w.write E pp
  | .resize sblen rblen => .ok (w.resize E sblen rblen).1

def calls (E : WriterEnv) (w : Writer) : List Call → Except Fault Writer
  | [] => .ok w
  | c :: cs => do
    let w ← w.call E c
    calls E w cs

end Writer

namespace Stream

def call (E : WriterEnv) (s : Stream) : Writer.Call → Stream
  | .write pp => s.write pp
  | .resize sblen rblen => s.resize E sblen rblen

end Stream

/-! ## End of a block -/

namespace Writer

variable {E : WriterEnv} {w w' : Writer} {b : Block}

variable {α β : Type} {pp : OutPacket} {fec : Packet.Fec} {payloadSize : Nat}
  {f : α → Except Fault β}

section
variable {l : List α} {l' : List β} (h : l.mapM f = .ok l')
include h

theorem mapM_eq_ok : List.Forall₂ (fun a b => f a = .ok b) l l' := by
  induction l generalizing l' with
  | nil =>
    cases h
    exact .nil
  | cons a l ih =>
    rw [mapM_cons] at h
    obtain ⟨b, hb, h⟩ := bind_eq_ok.mp h
    obtain ⟨rest, hrest, h⟩ := bind_eq_ok.mp h
    cases h
    exact .cons hb (ih hrest)

theorem mapM_eq_map {g : α → β} (hfg : ∀ a ∈ l, ∀ b, f a = .ok b → b = g a) : l' = l.map g := by
  have hall := mapM_eq_ok h
  clear h
  induction hall with
  | nil => rfl
  | cons hb _ ih =>
    rw [map_cons, hfg _ mem_cons_self _ hb, ih (forall_mem_cons.mp hfg).2]

end

structure Fits (sblen rblen : Nat) : Prop where
  pos : 0 < sblen
  le : sblen + rblen ≤ 65536

structure Opened (w : Writer) (b : Block) : Prop where
  fits : Fits b.sblen b.rblen
  sblen : w.curSblen = b.sblen
  rblen : w.curRblen = b.rblen
  curPacket : w.curPacket = b.sources.length
  source : w.source = b.payloads
  repairBlock : w.repairBlock = List.replicate b.rblen none
  room : b.sources.length < b.sblen

open Block

theorem fillPacketFecFields_eq (hfits : Fits b.sblen b.rblen) (hs : w.curSblen = b.sblen)
    (hr : w.curRblen = b.rblen) (fec : Packet.Fec) {esi : Nat} (hesi : esi < b.sblen + b.rblen) :
    w.fillPacketFecFields fec esi = b.stamp w.curSbn esi fec := by
  have hle := hfits.le
  unfold fillPacketFecFields stamp
  rw [hs, hr, Nat.mod_eq_of_lt (by omega : esi < 65536), Nat.mod_eq_of_lt (by omega)]

theorem validateFecPacket_eq_ok (h : validateFecPacket E pp = .ok fec) : pp.fec = some fec := by
  unfold validateFecPacket at h
  split at h
  · cases h
  · split at h
    · cases h
    · split at h
      · cases h
      · next hfec =>
        split at h
        · cases h
        · cases h
          exact hfec

def blank (E : WriterEnv) (b : Block) (number : Nat) (sbn : UInt16) (i : Nat) : Option OutPacket :=
  (E.newPacket number i).map fun packet =>
    { toPacket := { packet with fec := packet.fec.map (b.stamp sbn (b.sblen + i)) }, prepared := true }

section
variable (hfits : Fits b.sblen b.rblen) (hs : w.curSblen = b.sblen) (hr : w.curRblen = b.rblen)
include hfits hs hr

theorem makeRepairPacket_eq {i : Nat} (hi : i < b.rblen) {rp : Option OutPacket}
    (h : w.makeRepairPacket E i = .ok rp) : rp = blank E b w.begun w.curSbn i := by
  unfold makeRepairPacket at h
  unfold blank
  cases hnew : E.newPacket w.begun i with
  | none =>
    rw [hnew] at h
    cases h
    rfl
  | some packet =>
    rw [hnew] at h
    obtain ⟨fec, hfec, h⟩ := bind_eq_ok.mp h
    have hfec : packet.fec = some fec := validateFecPacket_eq_ok hfec
    cases h
    rw [fillPacketFecFields_eq hfits hs hr fec (by omega), hs, Option.map_some, hfec]
    rfl

theorem makeRepairPackets_eq (hblock : w.repairBlock = List.replicate b.rblen none)
    (h : w.makeRepairPackets E = .ok w') :
    w' = { w with repairBlock := (List.range b.rblen).map (blank E b w.begun w.curSbn) } := by
  obtain ⟨block, hmap, h⟩ := bind_eq_ok.mp h
  cases h
  rw [mapM_eq_map hmap (g := blank E b w.begun w.curSbn), hr]
  intro i hi place hplace
  have hi : i < b.rblen := hr ▸ mem_range.mp hi
  obtain ⟨rp, hrp, hplace⟩ := bind_eq_ok.mp hplace
  have hold : w.repairBlock[i]? = some none := by rw [hblock, List.getElem?_replicate, if_pos hi]
  have hblank := makeRepairPacket_eq hfits hs hr hi hrp
  rw [hold] at hplace
  cases rp with
  | none | some rp =>
    cases hplace
    exact hblank

end

theorem mapIdx_map_range (f : Nat → α → β) (g : Nat → α) (n : Nat) :
    ((List.range n).map g).mapIdx f = (List.range n).map fun i => f i (g i) := by
  refine ext_getElem (by simp) fun i h1 h2 => ?_
  simp

theorem composeRepairPackets_eq (h : w.composeRepairPackets E = .ok w') :
    w' = { w with repairBlock := w.repairBlock.map (Option.map fun rp => { rp with composed := true }) } := by
  obtain ⟨block, hmap, h⟩ := bind_eq_ok.mp h
  cases h
  rw [mapM_eq_map hmap (g := Option.map fun rp => { rp with composed := true })]
  intro place _ place' hplace
  cases place with
  | none =>
    cases hplace
    rfl
  | some rp =>
    obtain ⟨rp', hrp, hplace⟩ := bind_eq_ok.mp hplace
    cases hplace
    unfold composePacket at hrp
    split at hrp
    · cases hrp
    · cases hrp
      rfl

theorem endBlock_eq (hfits : Fits b.sblen b.rblen) (hs : w.curSblen = b.sblen) (hr : w.curRblen = b.rblen)
    (hblock : w.repairBlock = List.replicate b.rblen none) (hsource : w.source = b.payloads)
    (h : w.endBlock E = .ok w') :
    w' = { w with out := w.out ++ b.repairOutput E w.begun w.curSbn, repairBlock := List.replicate b.rblen none } := by
  obtain ⟨w1, hmake, h⟩ := bind_eq_ok.mp h
  cases makeRepairPackets_eq hfits hs hr hblock hmake
  obtain ⟨w2, hcompose, h⟩ := bind_eq_ok.mp h
  cases composeRepairPackets_eq hcompose
  cases h
  unfold writeRepairPackets encodeRepairPackets
  simp only [mapIdx_map_range, map_map, filterMap_map, length_map, length_range, repairOutput, hsource, hr]
  congr 2
  refine congrArg (List.filterMap · (List.range b.rblen)) (funext fun i => ?_)
  simp only [Function.comp_apply, id_eq, blank]
  cases E.newPacket w.begun i with
  | none => rfl
  | some packet =>
    simp only [Option.map_some]
    cases packet.fec <;> rfl

/-! ## Writing a packet -/

def sent (b : Block) (sbn : UInt16) (pp : OutPacket) : OutPacket :=
  { pp with fec := pp.fec.map (b.stamp sbn b.sources.length), composed := true }

theorem sourceOutput_append (sbn : UInt16) (pp : OutPacket) :
    sourceOutput { b with sources := b.sources ++ [pp] } sbn = b.sourceOutput sbn ++ [sent b sbn pp] := by
  unfold sourceOutput
  rw [mapIdx_append, mapIdx_singleton, Nat.zero_add]
  rfl

theorem payloads_append (hfec : pp.fec = some fec) :
    payloads { b with sources := b.sources ++ [pp] } = b.payloads ++ [fec.payload] := by
  unfold payloads
  rw [map_append, map_singleton, hfec]
  rfl

theorem writeInBlock_spec (hopen : Opened w b) (hfec : pp.fec = some fec)
    (h : w.writeInBlock E pp fec = .ok w') (halive : w'.alive = true) :
    w'.nextSblen = w.nextSblen ∧ w'.nextRblen = w.nextRblen ∧ w'.begun = w.begun ∧
      w'.repairBlock = List.replicate b.rblen none ∧
      if b.sources.length + 1 = b.sblen then
        w'.curPacket = 0 ∧ w'.curSbn = w.curSbn + 1 ∧
        w'.out = w.out ++ [sent b w.curSbn pp] ++
          repairOutput E { b with sources := b.sources ++ [pp] } w.begun w.curSbn
      else
        Opened w' { b with sources := b.sources ++ [pp] } ∧ w'.curSbn = w.curSbn ∧
        w'.out = w.out ++ [sent b w.curSbn pp] := by
  unfold writeInBlock at h
  split at h
  · cases h
    cases halive
  · obtain ⟨w1, hwrite, h⟩ := bind_eq_ok.mp h
    obtain ⟨pp', hcompose, hwrite⟩ := bind_eq_ok.mp hwrite
    have hpp' : pp' = sent b w.curSbn pp := by
      unfold composePacket at hcompose
      split at hcompose
      · cases hcompose
      · cases hcompose
        have hroom := hopen.room
        rw [fillPacketFecFields_eq hopen.fits hopen.sblen hopen.rblen fec (by rw [hopen.curPacket]; omega),
          hopen.curPacket]
        unfold sent
        rw [hfec]
        rfl
    cases hwrite
    subst hpp'
    dsimp only at h
    have hsource : w.source ++ [fec.payload] = payloads { b with sources := b.sources ++ [pp] } := by
      rw [payloads_append hfec, hopen.source]
    split at h
    · next hfull =>
      have hfull : b.sources.length + 1 = b.sblen := by rw [← hopen.curPacket, ← hopen.sblen]; exact hfull
      obtain ⟨w2, hend, h⟩ := bind_eq_ok.mp h
      cases endBlock_eq (b := { b with sources := b.sources ++ [pp] }) (w := { w with
          source := w.source ++ [fec.payload], out := w.out ++ [sent b w.curSbn pp], curPacket := w.curPacket + 1 })
        hopen.fits hopen.sblen hopen.rblen hopen.repairBlock hsource hend
      cases h
      rw [if_pos hfull]
      exact ⟨rfl, rfl, rfl, rfl, rfl, rfl, rfl⟩
    · next hfull =>
      have hfull : b.sources.length + 1 ≠ b.sblen := by rw [← hopen.curPacket, ← hopen.sblen]; exact hfull
      cases h
      rw [if_neg hfull]
      have hroom := hopen.room
      exact ⟨rfl, rfl, rfl, hopen.repairBlock,
        { hopen with
          curPacket := by simp [hopen.curPacket]
          source := hsource
          room := by simp only [length_append, length_singleton]; omega }, rfl, rfl⟩

theorem resize_replicate (n m : Nat) (a : α) :
    (List.replicate n a).take m ++ List.replicate (m - (List.replicate n a).length) a = List.replicate m a := by
  rw [take_replicate, length_replicate, replicate_append_replicate]
  congr 1
  omega

variable {sblen rblen : Nat}

theorem applySizes_false (h : w.applySizes E sblen rblen payloadSize = (w', false)) : w'.alive = false := by
  unfold applySizes at h
  split at h
  · cases h
    rfl
  · split at h
    · cases h
    · split at h
      · cases h
        rfl
      · cases h

theorem applySizes_true {n : Nat} (hblock : w.repairBlock = List.replicate n none)
    (h : w.applySizes E sblen rblen payloadSize = (w', true)) :
    ∃ resizings, w' = { w with
      curSblen := sblen, curRblen := rblen, curPayloadSize := payloadSize, resizings := resizings
      repairBlock := List.replicate rblen none } := by
  unfold applySizes at h
  split at h
  · cases h
  · split at h
    · next hlen =>
      cases h
      rw [hblock, length_replicate] at hlen
      exact ⟨w.resizings, by rw [← hlen, ← hblock]⟩
    · split at h
      · cases h
      · cases h
        exact ⟨w.resizings + 1, by rw [hblock, resize_replicate]⟩

theorem beginBlock_false (h : w.beginBlock E payloadSize = (w', false)) : w'.alive = false := by
  unfold beginBlock at h
  split at h
  · next hcheck =>
    cases h
    exact applySizes_false hcheck
  · dsimp only at h
    split at h
    · cases h
      rfl
    · cases h

theorem beginBlock_true (hfits : Fits w.nextSblen w.nextRblen) {n : Nat}
    (hblock : w.repairBlock = List.replicate n none) (hpacket : w.curPacket = 0)
    (h : w.beginBlock E payloadSize = (w', true)) :
    Opened w' { sblen := w.nextSblen, rblen := w.nextRblen } ∧ w'.nextSblen = w.nextSblen ∧
      w'.nextRblen = w.nextRblen ∧ w'.out = w.out ∧ w'.curSbn = w.curSbn ∧ w'.begun = w.begun + 1 := by
  unfold beginBlock at h
  split at h
  · cases h
  · next hcheck =>
    dsimp only at h
    split at h
    · cases h
    · cases h
      obtain ⟨resizings, rfl⟩ := applySizes_true hblock hcheck
      exact ⟨⟨hfits, rfl, rfl, hpacket, rfl, rfl, hfits.pos⟩, rfl, rfl, rfl, rfl, rfl⟩

end Writer

/-! ## Refinement -/

namespace Stream

def block (s : Stream) : Block := s.current.getD { sblen := s.sblen, rblen := s.rblen }

def sbn (s : Stream) (start : UInt16) : UInt16 := start + UInt16.ofNat s.blocks.length

variable (E : WriterEnv) (s : Stream) (start : UInt16) (pp : OutPacket)

theorem write_of_full (hfull : s.block.sources.length + 1 = s.block.sblen) : s.write pp = { s with
      blocks := s.blocks ++ [{ s.block with sources := s.block.sources ++ [pp] }], current := none } :=
  if_pos (by rw [length_append]; exact hfull)

theorem write_of_not_full (hfull : s.block.sources.length + 1 ≠ s.block.sblen) :
    s.write pp = { s with current := some { s.block with sources := s.block.sources ++ [pp] } } :=
  if_neg (by rw [length_append]; exact hfull)

theorem output_eq : s.output E start = ({ s with current := none } : Stream).output E start ++
    s.block.sourceOutput (s.sbn start) := by
  unfold output block sbn
  cases s.current with
  | none => simp [Block.sourceOutput]
  | some b => simp

theorem output_write_of_not_full (hfull : s.block.sources.length + 1 ≠ s.block.sblen) :
    (s.write pp).output E start = s.output E start ++ [sent s.block (s.sbn start) pp] := by
  rw [write_of_not_full s pp hfull, output_eq, output_eq E s, append_assoc, ← sourceOutput_append]
  rfl

theorem output_write_of_full (hfull : s.block.sources.length + 1 = s.block.sblen) :
    (s.write pp).output E start = s.output E start ++ [sent s.block (s.sbn start) pp] ++
      Block.repairOutput E { s.block with sources := s.block.sources ++ [pp] } (s.blocks.length + 1) (s.sbn start) := by
  rw [write_of_full s pp hfull, output_eq E s, append_assoc _ (Block.sourceOutput _ _), ← sourceOutput_append]
  simp [output, sbn, mapIdx_append, append_assoc]

end Stream

namespace Writer

variable {E : WriterEnv} {w w' : Writer} {s : Stream} {start : UInt16}

structure Follows (E : WriterEnv) (start : UInt16) (w : Writer) (s : Stream) : Prop where
  out : w.out = s.output E start
  sblen : w.nextSblen = s.sblen
  rblen : w.nextRblen = s.rblen
  fits : Fits s.sblen s.rblen
  sbn : w.curSbn = s.sbn start
  full : ∀ b ∈ s.blocks, b.sources.length = b.sblen
  idle : s.current = none → w.curPacket = 0 ∧ w.begun = s.blocks.length ∧ ∃ n, w.repairBlock = List.replicate n none
  busy : ∀ b, s.current = some b → Opened w b ∧ b.sources ≠ [] ∧ w.begun = s.blocks.length + 1

variable {sblen rblen : Nat}

theorem Follows.resize (h : Follows E start w s)
    (hfits : sblen + rblen < 18446744073709551616 ∧ (sblen + rblen ≤ E.maxBlockLength → sblen + rblen ≤ 65536)) :
    Follows E start (w.resize E sblen rblen).1 (s.resize E sblen rblen) := by
  obtain ⟨hlt, hmax⟩ := hfits
  unfold Writer.resize Stream.resize
  rw [Nat.mod_eq_of_lt hlt]
  by_cases hsame : w.nextSblen = sblen ∧ w.nextRblen = rblen
  · rw [if_pos hsame]
    obtain ⟨hs, hr⟩ := hsame
    have heq : (if sblen ≠ 0 ∧ sblen + rblen ≤ E.maxBlockLength then { s with sblen, rblen } else s) = s := by
      split
      · rw [← hs, ← hr, h.sblen, h.rblen]
      · rfl
    rw [heq]
    exact h
  · rw [if_neg hsame]
    by_cases hzero : sblen = 0
    · rw [if_pos hzero, if_neg (fun hc => hc.1 hzero)]
      exact h
    · rw [if_neg hzero]
      by_cases hlong : sblen + rblen > E.maxBlockLength
      · rw [if_pos hlong, if_neg (fun hc => absurd hc.2 (by omega))]
        exact h
      · rw [if_neg hlong, if_pos ⟨hzero, by omega⟩]
        exact { h with
          sblen := rfl
          rblen := rfl
          fits := ⟨Nat.pos_of_ne_zero hzero, hmax (by omega)⟩
          busy := fun b hb => ⟨{ (h.busy b hb).1 with }, (h.busy b hb).2⟩ }

variable {pp : OutPacket}

theorem follows_writeInBlock (hnext : w.nextSblen = s.sblen ∧ w.nextRblen = s.rblen)
    (hfits : Fits s.sblen s.rblen) (hout : w.out = s.output E start) (hsbn : w.curSbn = s.sbn start)
    (hfull : ∀ b ∈ s.blocks, b.sources.length = b.sblen) (hopen : Opened w s.block)
    (hbegun : w.begun = s.blocks.length + 1) {fec : Packet.Fec} (hfec : pp.fec = some fec)
    (h : w.writeInBlock E pp fec = .ok w') (halive : w'.alive = true) : Follows E start w' (s.write pp) := by
  obtain ⟨hsblen, hrblen, hbegun', hrepair, hcases⟩ := writeInBlock_spec hopen hfec h halive
  split at hcases
  · next hlast =>
    obtain ⟨hpacket, hsbn', hout'⟩ := hcases
    refine {
      out := ?_
      sblen := ?_
      rblen := ?_
      fits := ?_
      sbn := ?_
      full := ?_
      idle := fun _ => ⟨hpacket, ?_, _, hrepair⟩
      busy := fun b hb => ?_ }
    · rw [hout', hout, hsbn, hbegun, Stream.output_write_of_full E s start pp hlast]
    all_goals rw [Stream.write_of_full s pp hlast] at *
    · exact hsblen.trans hnext.1
    · exact hrblen.trans hnext.2
    · exact hfits
    · rw [hsbn', hsbn]
      unfold Stream.sbn
      rw [length_append, length_singleton, UInt16.ofNat_add, UInt16.add_assoc]
      rfl
    · intro b hb
      rcases mem_append.mp hb with hb | hb
      · exact hfull b hb
      · cases mem_singleton.mp hb
        rw [length_append]
        exact hlast
    · rw [hbegun', hbegun, length_append, length_singleton]
    · cases hb
  · next hlast =>
    obtain ⟨hopen', hsbn', hout'⟩ := hcases
    refine {
      out := ?_
      sblen := ?_
      rblen := ?_
      fits := ?_
      sbn := ?_
      full := ?_
      idle := fun hb => ?_
      busy := fun b hb => ?_ }
    · rw [hout', hout, hsbn, Stream.output_write_of_not_full E s start pp hlast]
    all_goals rw [Stream.write_of_not_full s pp hlast] at *
    · exact hsblen.trans hnext.1
    · exact hrblen.trans hnext.2
    · exact hfits
    · exact hsbn'.trans hsbn
    · exact hfull
    · cases hb
    · cases hb
      exact ⟨hopen', by simp, hbegun'.trans hbegun⟩

theorem Follows.write (h : Follows E start w s) (heq : w.write E pp = .ok w')
    (halive : w'.alive = true) : Follows E start w' (s.write pp) := by
  unfold Writer.write at heq
  split at heq
  · next hdead =>
    cases heq
    rw [halive] at hdead
    cases hdead
  · split at heq
    · cases heq
    · next fec hvalid =>
      have hfec := validateFecPacket_eq_ok hvalid
      cases hcur : s.current with
      | none =>
        obtain ⟨hpacket, hbegun, n, hrepair⟩ := h.idle hcur
        have hblock : s.block = { sblen := s.sblen, rblen := s.rblen } := by rw [Stream.block, hcur]; rfl
        rw [if_pos hpacket] at heq
        split at heq
        · next w1 hbegin =>
          cases heq
          rw [beginBlock_false hbegin] at halive
          cases halive
        · next w1 hbegin =>
          obtain ⟨hopen, hsblen, hrblen, hout, hsbn, hbegun'⟩ :=
            beginBlock_true (h.sblen ▸ h.rblen ▸ h.fits) hrepair hpacket hbegin
          rw [h.sblen, h.rblen, ← hblock] at hopen
          exact follows_writeInBlock ⟨hsblen.trans h.sblen, hrblen.trans h.rblen⟩ h.fits (hout.trans h.out)
            (hsbn.trans h.sbn) h.full hopen (by rw [hbegun', hbegun]) hfec heq halive
      | some b =>
        obtain ⟨hopen, hne, hbegun⟩ := h.busy b hcur
        have hblock : s.block = b := by rw [Stream.block, hcur]; rfl
        rw [if_neg (by rw [hopen.curPacket]; exact fun hz => hne (length_eq_zero_iff.mp hz))] at heq
        exact follows_writeInBlock ⟨h.sblen, h.rblen⟩ h.fits h.out h.sbn h.full (hblock ▸ hopen) hbegun hfec heq halive

theorem write_alive (heq : w.write E pp = .ok w') (halive : w'.alive = true) : w.alive = true := by
  unfold write at heq
  split at heq
  · cases heq
    exact halive
  · next h => simpa using h

theorem call_alive {c : Call} (heq : w.call E c = .ok w') (halive : w'.alive = true) : w.alive = true := by
  cases c with
  | write pp => exact write_alive heq halive
  | resize sblen rblen =>
    cases heq
    revert halive
    unfold resize
    split
    · exact id
    · split
      · exact id
      · split <;> exact id

theorem calls_alive {cs : List Call} (heq : w.calls E cs = .ok w') (halive : w'.alive = true) : w.alive = true := by
  induction cs generalizing w with
  | nil =>
    cases heq
    exact halive
  | cons c cs ih =>
    obtain ⟨w1, hcall, heq⟩ := bind_eq_ok.mp heq
    exact call_alive hcall (ih heq)

/-- Sizes that do not overflow, and that the encoder has only if the symbols of the block can be numbered. -/
def Moderate (E : WriterEnv) (sblen rblen : Nat) : Prop :=
  sblen + rblen < 18446744073709551616 ∧ (sblen + rblen ≤ E.maxBlockLength → sblen + rblen ≤ 65536)

def Call.Moderate (E : WriterEnv) : Call → Prop
  | .write _ => True
  | .resize sblen rblen => Writer.Moderate E sblen rblen

theorem Follows.calls (h : Follows E start w s) (cs : List Call) (hmoderate : ∀ c ∈ cs, c.Moderate E)
    (heq : w.calls E cs = .ok w') (halive : w'.alive = true) : Follows E start w' (cs.foldl (Stream.call E) s) := by
  induction cs generalizing w s with
  | nil =>
    cases heq
    exact h
  | cons c cs ih =>
    obtain ⟨w1, hcall, heq⟩ := bind_eq_ok.mp heq
    refine ih ?_ (forall_mem_cons.mp hmoderate).2 heq
    have halive1 := calls_alive heq halive
    cases c with
    | write pp => exact h.write hcall halive1
    | resize sblen rblen =>
      cases hcall
      exact h.resize (hmoderate _ mem_cons_self)

theorem follows_create {nSource nRepair : Nat} (hsource : nSource ≠ 0) (hmoderate : Moderate E nSource nRepair)
    (h : create E nSource nRepair start = some w) : Follows E start w { sblen := nSource, rblen := nRepair } := by
  unfold create resize at h
  rw [if_neg (fun hc => hsource hc.1.symm), if_neg hsource, Nat.mod_eq_of_lt hmoderate.1] at h
  by_cases hlong : nSource + nRepair > E.maxBlockLength
  · rw [if_pos hlong] at h
    cases h
  · rw [if_neg hlong] at h
    cases h
    exact {
      out := rfl
      sblen := rfl
      rblen := rfl
      fits := ⟨Nat.pos_of_ne_zero hsource, hmoderate.2 (by omega)⟩
      sbn := (UInt16.add_zero start).symm
      full := fun b hb => by cases hb
      idle := fun _ => ⟨rfl, rfl, 0, rfl⟩
      busy := fun b hb => by cases hb }

theorem length_repairOutput (hnew : ∀ number i, (E.newPacket number i).isSome) (b : Block) (number : Nat)
    (sbn : UInt16) : (b.repairOutput E number sbn).length = b.rblen := by
  unfold Block.repairOutput
  rw [length_filterMap_eq_countP, countP_eq_length.mpr, length_range]
  intro i _
  rw [Option.isSome_map]
  exact hnew number i

theorem resize_refused (h : (w.resize E sblen rblen).2 = false) : (w.resize E sblen rblen).1 = w := by
  revert h
  unfold resize
  split
  · exact fun _ => rfl
  · split
    · exact fun _ => rfl
    · split
      · exact fun _ => rfl
      · exact fun h => by cases h

/-- A writer that is alive after any calls has put out the blocks of its stream. -/
theorem calls_output (E : WriterEnv) (start : UInt16) (nSource nRepair : Nat) (hsource : nSource ≠ 0)
    (hmoderate : Moderate E nSource nRepair) (w w' : Writer) (hcreate : create E nSource nRepair start = some w)
    (cs : List Call) (hcs : ∀ c ∈ cs, c.Moderate E) (hcalls : w.calls E cs = .ok w') (halive : w'.alive = true)
    (hnew : ∀ number i, (E.newPacket number i).isSome) :
    let s := cs.foldl (Stream.call E) { sblen := nSource, rblen := nRepair }
    w'.out = s.output E start ∧ (∀ b ∈ s.blocks, b.sources.length = b.sblen) ∧
      (∀ b ∈ s.current, 0 < b.sources.length ∧ b.sources.length < b.sblen) ∧
      (∀ b number sbn, (Block.repairOutput E b number sbn).length = b.rblen) ∧
      ∀ (v : Writer) sblen rblen, (v.resize E sblen rblen).2 = false → (v.resize E sblen rblen).1 = v := by
  have h := (follows_create hsource hmoderate hcreate).calls cs hcs hcalls halive
  exact ⟨h.out, h.full, fun b hb => ⟨List.length_pos_iff.mpr (h.busy b hb).2.1, (h.busy b hb).1.room⟩,
    length_repairOutput hnew, fun _ _ _ => resize_refused⟩

def smallEnv : WriterEnv where
  fecScheme := .reedSolomonM8
  maxBlockLength := 255
  begins _ _ _ _ := true
  encode _ _ _ := [0]
  newPacket _ _ := some { fec := some {
    fecScheme := .reedSolomonM8, encodingSymbolId := 0, sourceBlockNumber := 0, sourceBlockLength := 0
    blockLength := 0, payload := [0] } }
  composes _ := true
  resizes _ := true

def smallPacket (byte : UInt8) : OutPacket where
  prepared := true
  fec := some {
    fecScheme := .reedSolomonM8, encodingSymbolId := 0, sourceBlockNumber := 0, sourceBlockLength := 0
    blockLength := 0, payload := [byte] }

theorem calls_output_resized :
    ∃ w w' : Writer, create smallEnv 1 1 65535 = some w ∧
    w.calls smallEnv [.write (smallPacket 1), .resize 2 0, .write (smallPacket 2)] = .ok w' ∧ w'.out.length = 3 ∧
    w'.out = ([Call.write (smallPacket 1), .resize 2 0, .write (smallPacket 2)].foldl (Stream.call smallEnv)
      { sblen := 1, rblen := 1 }).output smallEnv 65535 :=
  ⟨_, _, rfl, rfl, rfl, (calls_output smallEnv 65535 1 1 (by decide) ⟨by decide, by decide⟩ _ _ rfl
    [.write (smallPacket 1), .resize 2 0, .write (smallPacket 2)]
    (fun c hc => by
      rcases List.mem_cons.mp hc with rfl | hc
      · trivial
      · rcases List.mem_cons.mp hc with rfl | hc
        · exact ⟨by decide, by decide⟩
        · cases List.mem_singleton.mp hc
          trivial) rfl rfl (fun _ _ => rfl)).1⟩

/-- The constructor takes 0 source and 0 repair packets for no change of the sizes, and the block never ends. -/
theorem emptyBlock_accepted :
    ∃ w w' : Writer, create smallEnv 0 0 7 = some w ∧
    w.calls smallEnv [.write (smallPacket 1), .write (smallPacket 2)] = .ok w' ∧ w'.alive = true ∧
    w'.out.map (fun pp => pp.fec.map fun fec => (fec.sourceBlockNumber, fec.encodingSymbolId, fec.sourceBlockLength)) =
      [some (7, 0, 0), some (7, 1, 0)] :=
  ⟨_, _, rfl, rfl, rfl, rfl⟩

end Writer

end Roc.Fec
