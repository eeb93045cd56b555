import RocToolkit.Lib.Loop
import RocToolkit.Core.Slice
import RocToolkit.Packet.Order

/-!
# RocToolkit.Fec.Reader

`fec::Reader`: source and repair packets wait in two sorted queues, the packets of the current block are moved from
there into `source_block_` and `repair_block_`, and `read` returns the packets of the block one after another. Where one is
missing, the block decoder is asked to repair what it can.

Arrays are lists of optional packets. What the code gets from outside is in `Env`: the decoder and the
allocators answer by the number of the question, so that nothing is assumed about how one answer depends on another.
-/

namespace Roc
namespace Fec

/-- A packet of the reader, with `FlagRestored`. -/
structure BlockPacket extends Packet where
  restored : Bool := false
deriving DecidableEq, Repr

/-- `packet::SortedQueue` of unlimited size, from `front()` to `back()`. -/
abbrev SortedQueue := List BlockPacket

namespace SortedQueue

def head (q : SortedQueue) : Option BlockPacket := q.getLast?

def write (packet : BlockPacket) : SortedQueue → SortedQueue
  | [] => [packet]
  | pos :: rest =>
    match packet.toPacket.compare pos.toPacket with
    | .lt => pos :: write packet rest
    | .eq => pos :: rest
    | .gt => packet :: pos :: rest

end SortedQueue

/-- `IBlockDecoder`, the parser of repaired packets, the packet factory and the arena. -/
structure Env where
  maxSbnJump : Nat := 100
  fecScheme : FecScheme
  maxBlockLength : Nat
  /-- the result of `begin`, in an attempt -/
  begins : (attempt sblen rblen payloadSize : Nat) → Bool
  /-- the result of `repair`, in an attempt that was given some symbols -/
  repair : (attempt : Nat) → (symbols : List (Nat × List UInt8)) → (index : Nat) → Option (List UInt8)
  parse : Packet.Parser
  newPacket : (attempt index : Nat) → Bool
  resizes : Nat → Bool

structure Reader where
  alive : Bool := true
  started : Bool := false
  canRepair : Bool := false
  nextPacket : Nat := 0
  curSbn : UInt16 := 0
  payloadSize : Nat := 0
  sourceBlockResized : Bool := false
  repairBlockResized : Bool := false
  payloadResized : Bool := false
  sourceQueue : SortedQueue := []
  repairQueue : SortedQueue := []
  sourceBlock : List (Option BlockPacket) := []
  repairBlock : List (Option BlockPacket) := []
  -- history: the number of calls of `begin` and of `resize`, and of blocks since the start
  attempts : Nat := 0
  resizings : Nat := 0
  blocks : Nat := 0
deriving DecidableEq, Repr

namespace Reader

open Roc.Packet (blknumLt blknumLe diff16)

variable (E : Env)

/-! ## Sizes -/

def validateIncomingSourcePacket (fec : Packet.Fec) : Bool := fec.encodingSymbolId < fec.sourceBlockLength &&
  fec.sourceBlockLength ≠ 0 &&
  (fec.blockLength = 0 || fec.sourceBlockLength ≤ fec.blockLength) &&
  fec.payload.length ≠ 0

def validateIncomingRepairPacket (fec : Packet.Fec) : Bool := fec.sourceBlockLength ≤ fec.encodingSymbolId &&
  fec.sourceBlockLength ≠ 0 &&
  (fec.blockLength = 0 || (fec.encodingSymbolId < fec.blockLength && fec.sourceBlockLength ≤ fec.blockLength)) &&
  fec.payload.length ≠ 0

def canUpdatePayloadSize (r : Reader) (newPayloadSize : Nat) : Bool :=
  r.payloadSize = newPayloadSize || !r.payloadResized

def updatePayloadSize (r : Reader) (newPayloadSize : Nat) : Reader :=
  { r with payloadSize := newPayloadSize, payloadResized := true }

/-- `can_update_source_block_size_` and `can_update_repair_block_size_` from the comparison of the sizes on. -/
def canUpdateSize (r : Reader) (same resized : Bool) (newLen : Nat) : Reader × Bool :=
  if same then (r, true)
  else if resized then (r, false)
  else if newLen > E.maxBlockLength then ({ r with alive := false }, false)
  else (r, true)

def canUpdateSourceBlockSize (r : Reader) (newSblen : Nat) : Reader × Bool :=
  r.canUpdateSize E (r.sourceBlock.length = newSblen) r.sourceBlockResized newSblen

def canUpdateRepairBlockSize (r : Reader) (newBlen : Nat) : Reader × Bool :=
  r.canUpdateSize E (newBlen = r.sourceBlock.length + r.repairBlock.length) r.repairBlockResized newBlen

/-- `core::Array::resize`, when there is memory. -/
def resize (block : List (Option BlockPacket)) (newSize : Nat) : List (Option BlockPacket) :=
  block.take newSize ++ List.replicate (newSize - block.length) none

def updateSourceBlockSize (r : Reader) (newSblen : Nat) : Reader × Bool :=
  if r.sourceBlock.length = newSblen then ({ r with sourceBlockResized := true }, true)
  else if E.resizes r.resizings = false then ({ r with alive := false, resizings := r.resizings + 1 }, false)
  else
    ({ r with
      sourceBlock := resize r.sourceBlock newSblen
      sourceBlockResized := true
      resizings := r.resizings + 1 }, true)

def updateRepairBlockSize (r : Reader) (newBlen : Nat) : Except Fault (Reader × Bool) :=
  if newBlen = r.sourceBlock.length + r.repairBlock.length then .ok ({ r with repairBlockResized := true }, true)
  else if ¬ newBlen > r.sourceBlock.length then .error (.panic "new_blen > cur_sblen")
  else if E.resizes r.resizings = false then .ok ({ r with alive := false, resizings := r.resizings + 1 }, false)
  else
    .ok ({ r with
      repairBlock := resize r.repairBlock (newBlen - r.sourceBlock.length)
      repairBlockResized := true
      resizings := r.resizings + 1 }, true)

def processSourcePacket (r : Reader) (fec : Packet.Fec) : Reader × Bool :=
  if !validateIncomingSourcePacket fec then (r, false)
  else if !r.canUpdatePayloadSize fec.payload.length then (r, false)
  else
    match r.canUpdateSourceBlockSize E fec.sourceBlockLength with
    | (r, false) => (r, false)
    | (r, true) => (r.updatePayloadSize fec.payload.length).updateSourceBlockSize E fec.sourceBlockLength

def processRepairPacket (r : Reader) (fec : Packet.Fec) : Except Fault (Reader × Bool) :=
  if !validateIncomingRepairPacket fec then .ok (r, false)
  else if !r.canUpdatePayloadSize fec.payload.length then .ok (r, false)
  else
    match r.canUpdateSourceBlockSize E fec.sourceBlockLength with
    | (r, false) => .ok (r, false)
    | (r, true) =>
      match r.canUpdateRepairBlockSize E fec.blockLength with
      | (r, false) => .ok (r, false)
      | (r, true) =>
        match (r.updatePayloadSize fec.payload.length).updateSourceBlockSize E fec.sourceBlockLength with
        | (r, false) => .ok (r, false)
        | (r, true) => r.updateRepairBlockSize E fec.blockLength

/-! ## Filling the block -/

/-- `(size_t)` of the absolute value of a difference; that of the least difference is the difference itself. -/
def blkDist (a b : UInt16) : Nat := if diff16 a b = -32768 then 18446744073709518848 else (diff16 a b).natAbs

def validateSbnSequence (r : Reader) (fec : Packet.Fec) : Reader × Bool :=
  if blkDist fec.sourceBlockNumber r.curSbn > E.maxSbnJump then ({ r with alive := false }, false) else (r, true)

/-- One round of `fill_source_block_`. -/
def fillSourceRound (r : Reader) : Except Fault (Loop.Round Reader) :=
  match r.sourceQueue.head with
  | none => .ok (.leave r)
  | some pp =>
    match pp.fec with
    | none => .error .nullPointer
    | some fec =>
      match r.validateSbnSequence E fec with
      | (r, false) => .ok (.leave r)
      | (r, true) =>
        if !blknumLe fec.sourceBlockNumber r.curSbn then .ok (.leave r)
        else
          let r := { r with sourceQueue := r.sourceQueue.dropLast }
          if blknumLt fec.sourceBlockNumber r.curSbn then .ok (.again r)
          else if fec.sourceBlockNumber ≠ r.curSbn then .error (.panic "fec.source_block_number == cur_sbn_")
          else
            match r.processSourcePacket E fec with
            | (r, false) => .ok (.again r)
            | (r, true) =>
              if fec.sourceBlockLength ≠ r.sourceBlock.length then
                .error (.panic "fec.source_block_length == source_block_.size()")
              else
                match r.sourceBlock[fec.encodingSymbolId]? with
                | none => .error (.panic "fec.encoding_symbol_id < source_block_.size()")
                | some (some _) => .ok (.again r)
                | some none =>
                  .ok (.again { r with
                    canRepair := true
                    sourceBlock := r.sourceBlock.set fec.encodingSymbolId (some pp) })

def fillSourceBlock (r : Reader) : Except Fault Reader :=
  Loop.repeatUntil (fillSourceRound E) .outOfFuel (r.sourceQueue.length + 1) r

/-- One round of `fill_repair_block_`. -/
def fillRepairRound (r : Reader) : Except Fault (Loop.Round Reader) :=
  match r.repairQueue.head with
  | none => .ok (.leave r)
  | some pp =>
    match pp.fec with
    | none => .error .nullPointer
    | some fec =>
      match r.validateSbnSequence E fec with
      | (r, false) => .ok (.leave r)
      | (r, true) =>
        if !blknumLe fec.sourceBlockNumber r.curSbn then .ok (.leave r)
        else
          let r := { r with repairQueue := r.repairQueue.dropLast }
          if blknumLt fec.sourceBlockNumber r.curSbn then .ok (.again r)
          else if fec.sourceBlockNumber ≠ r.curSbn then .error (.panic "fec.source_block_number != cur_sbn_")
          else
            match r.processRepairPacket E fec with
            | .error fault => .error fault
            | .ok (r, false) => .ok (.again r)
            | .ok (r, true) =>
              if fec.sourceBlockLength ≠ r.sourceBlock.length then
                .error (.panic "fec.source_block_length == source_block_.size()")
              else if ¬ fec.encodingSymbolId ≥ r.sourceBlock.length then
                .error (.panic "fec.encoding_symbol_id >= source_block_.size()")
              else
                match r.repairBlock[fec.encodingSymbolId - fec.sourceBlockLength]? with
                | none => .error (.panic "fec.encoding_symbol_id < source_block_.size() + repair_block_.size()")
                | some (some _) => .ok (.again r)
                | some none =>
                  .ok (.again { r with
                    canRepair := true
                    repairBlock := r.repairBlock.set (fec.encodingSymbolId - fec.sourceBlockLength) (some pp) })

def fillRepairBlock (r : Reader) : Except Fault Reader :=
  Loop.repeatUntil (fillRepairRound E) .outOfFuel (r.repairQueue.length + 1) r

def fillBlock (r : Reader) : Except Fault Reader := do
  let r ← r.fillSourceBlock E
  r.fillRepairBlock E

def nextBlock (r : Reader) : Except Fault Reader := Reader.fillBlock E { r with
    sourceBlock := List.replicate r.sourceBlock.length none
    repairBlock := List.replicate r.repairBlock.length none
    curSbn := r.curSbn + 1
    nextPacket := 0
    sourceBlockResized := false
    repairBlockResized := false
    payloadResized := false
    canRepair := false
    blocks := r.blocks + 1 }

/-! ## Repairing -/

def parseRepairedPacket (attempt index : Nat) (buffer : List UInt8) : Option BlockPacket :=
  if !E.newPacket attempt index then none
  else (E.parse {} buffer).map fun packet => { toPacket := { packet with buffer }, restored := true }

def symbols (block : List (Option BlockPacket)) (first : Nat) : Except Fault (List (Nat × List UInt8)) :=
  match block with
  | [] => .ok []
  | none :: rest => symbols rest (first + 1)
  | some packet :: rest =>
    match packet.fec with
    | none => .error .nullPointer
    | some fec => do
      let others ← symbols rest (first + 1)
      .ok ((first, fec.payload) :: others)

def repairPlace (attempt : Nat) (symbols : List (Nat × List UInt8)) (index : Nat) (place : Option BlockPacket) :
    Option BlockPacket :=
  match place with
  | some packet => some packet
  | none => (E.repair attempt symbols index).bind (parseRepairedPacket E attempt index)

def tryRepair (r : Reader) : Except Fault Reader :=
  if !r.canRepair then .ok r
  else if !r.sourceBlockResized || !r.repairBlockResized || !r.payloadResized then .ok r
  else
    let attempt := r.attempts
    let r := { r with attempts := attempt + 1 }
    if !E.begins attempt r.sourceBlock.length r.repairBlock.length r.payloadSize then .ok { r with alive := false }
    else do
      let source ← symbols r.sourceBlock 0
      let repair ← symbols r.repairBlock r.sourceBlock.length
      .ok { r with
        sourceBlock := r.sourceBlock.mapIdx (repairPlace E attempt (source ++ repair))
        canRepair := false }

/-! ## Reading -/

/-- A packet that `read` returns: before the start it is forwarded, later it is taken from a place of a block. -/
inductive Output where
  | forwarded (packet : BlockPacket)
  | returned (block index : Nat) (packet : BlockPacket)
deriving DecidableEq, Repr

/-- The first place with a packet, in a part of the block that starts at `pos`. -/
def firstPresent (pos : Nat) : List (Option BlockPacket) → Option (Nat × BlockPacket)
  | [] => none
  | some packet :: _ => some (pos, packet)
  | none :: rest => firstPresent (pos + 1) rest

/-- `next_packet_ = index + 1`, and the next block if this one is over. -/
def advance (r : Reader) (index : Nat) : Except Fault Reader :=
  let r := { r with nextPacket := index + 1 }
  if r.nextPacket = r.sourceBlock.length then r.nextBlock E else .ok r

/-- The rounds of `get_next_packet_` that look for a packet. -/
def findNext : Nat → Reader → Except Fault (Option Output × StatusCode × Reader)
  | 0, _ => .error .outOfFuel
  | fuel + 1, r =>
    if !r.alive then .ok (none, .ok, r)
    else do
      let r ← r.tryRepair E
      match firstPresent r.nextPacket (r.sourceBlock.drop r.nextPacket) with
      | some (index, packet) =>
        let r' ← r.advance E index
        .ok (some (.returned r.blocks index packet), .ok, r')
      | none =>
        if r.sourceQueue.length = 0 then .ok (none, .noData, r)
        else do
          let r ← r.nextBlock E
          findNext fuel r

def getNextPacket (r : Reader) : Except Fault (Option Output × StatusCode × Reader) := do
  let r ← r.fillBlock E
  match r.sourceBlock[r.nextPacket]? with
  | none => .error (.panic "array: subscript out of range")
  | some none => findNext E ((r.sourceQueue.length + 1) * 65536) r
  | some (some packet) =>
    let output := Output.returned r.blocks r.nextPacket packet
    if !r.alive then .ok (some output, .ok, r)
    else do
      let r ← r.advance E r.nextPacket
      .ok (some output, .ok, r)

/-! ## Calls -/

/-- What a reader upstream has: packets, and the status that ends them if it is not `StatusNoData`. -/
structure Arrivals where
  packets : List BlockPacket := []
  failure : Option StatusCode := none

/-- `fetch_packets_` into a queue, and whether all packets had the scheme of the session. -/
def fetchPackets : List BlockPacket → SortedQueue → Except Fault (SortedQueue × Bool)
  | [], queue => .ok (queue, true)
  | pp :: rest, queue =>
    match pp.fec with
    | none => .error (.panic "fec reader: unexpected non-fec source packet")
    | some fec =>
      if fec.fecScheme ≠ E.fecScheme then .ok (queue, false)
      else fetchPackets rest (queue.write pp)

def fetchAllPackets (r : Reader) (source repair : Arrivals) : Except Fault (Reader × Option StatusCode) := do
  let (queue, valid) ← fetchPackets E source.packets r.sourceQueue
  let r := { r with sourceQueue := queue, alive := r.alive && valid }
  match if valid then source.failure else none with
  | some code => .ok (r, some code)
  | none => do
    let (queue, valid) ← fetchPackets E repair.packets r.repairQueue
    let r := { r with repairQueue := queue, alive := r.alive && valid }
    .ok (r, if valid then repair.failure else none)

/-- One round of `drop_repair_packets_from_prev_blocks_`. -/
def dropRepairRound (r : Reader) : Except Fault (Loop.Round Reader) :=
  match r.repairQueue.head with
  | none => .ok (.leave r)
  | some pp =>
    match pp.fec with
    | none => .error .nullPointer
    | some fec =>
      if !blknumLt fec.sourceBlockNumber r.curSbn then .ok (.leave r)
      else .ok (.again { r with repairQueue := r.repairQueue.dropLast })

def dropRepairPacketsFromPrevBlocks (r : Reader) : Except Fault Reader :=
  Loop.repeatUntil dropRepairRound .outOfFuel (r.repairQueue.length + 1) r

def tryStart (r : Reader) : Except Fault (Reader × Bool) :=
  match r.sourceQueue.head with
  | none => .ok (r, false)
  | some pp =>
    match pp.fec with
    | none => .error .nullPointer
    | some fec =>
      match r.processSourcePacket E fec with
      | (r, false) => .ok (r, false)
      | (r, true) => do
        let r ← Reader.dropRepairPacketsFromPrevBlocks { r with curSbn := fec.sourceBlockNumber }
        if fec.encodingSymbolId > 0 then .ok (r, false)
        else .ok ({ r with started := true }, true)

/-- `SortedQueue::read` of the source queue. -/
def forward (r : Reader) : Option Output × StatusCode × Reader :=
  match r.sourceQueue.head with
  | none => (none, .noData, r)
  | some pp => (some (.forwarded pp), .ok, { r with sourceQueue := r.sourceQueue.dropLast })

/-- The part of `read_` that starts the reader, if it is not started. -/
def ensureStarted (r : Reader) : Except Fault (Reader × Bool) := if r.started then .ok (r, true) else r.tryStart E

/-- `read_`. -/
def readPacket (r : Reader) (source repair : Arrivals) : Except Fault (Option Output × StatusCode × Reader) := do
  let (r, failure) ← r.fetchAllPackets E source repair
  match failure with
  | some code => .ok (none, code, r)
  | none => do
    let (r, started) ← r.ensureStarted E
    if started then r.getNextPacket E else .ok r.forward

def read (r : Reader) (source repair : Arrivals) : Except Fault (Option Output × StatusCode × Reader) :=
  if !r.alive then .ok (none, .noData, r)
  else do
    let (output, code, r) ← r.readPacket E source repair
    if !r.alive then .ok (none, .noData, r) else .ok (output, code, r)

end Reader
end Fec
end Roc
