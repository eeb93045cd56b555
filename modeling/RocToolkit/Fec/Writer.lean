import RocToolkit.Core.Slice
import RocToolkit.Packet.Parsers

/-!
# RocToolkit.Fec.Writer

`fec::Writer`: source packets get their FEC fields and go out at once; after the last one of a block, its repair packets
follow. Sizes of blocks are changed by `resize`, from the next block on.

`size_t` sums are taken modulo 2^64, and `seqnum_t` has 16 bits. The encoder, the composers, the packet factory and the
arena are in `WriterEnv`; the encoder and the arena answer by the number of the question.
-/

namespace Roc.Fec

/-- A packet with `FlagPrepared` and `FlagComposed`. -/
structure OutPacket extends Packet where
  prepared : Bool := false
  composed : Bool := false
deriving DecidableEq, Repr

structure WriterEnv where
  fecScheme : FecScheme
  maxBlockLength : Nat
  /-- the result of `IBlockEncoder::begin` -/
  begins : (number sblen rblen payloadSize : Nat) → Bool
  /-- the repair symbol that `IBlockEncoder::fill` makes of the source symbols -/
  encode : (source : List (List UInt8)) → (rblen index : Nat) → List UInt8
  /-- a packet with a buffer, aligned and prepared by the repair composer -/
  newPacket : (number index : Nat) → Option Packet
  composes : OutPacket → Bool
  resizes : Nat → Bool

structure Writer where
  curSblen : Nat := 0
  nextSblen : Nat := 0
  curRblen : Nat := 0
  nextRblen : Nat := 0
  curPayloadSize : Nat := 0
  repairBlock : List (Option OutPacket) := []
  curPacket : Nat := 0
  curSbn : UInt16
  alive : Bool := true
  -- the source symbols that the encoder was given, and the packets that went out
  source : List (List UInt8) := []
  out : List OutPacket := []
  -- history: the number of calls of `begin` and of `resize`
  begun : Nat := 0
  resizings : Nat := 0
deriving DecidableEq, Repr

namespace Writer

variable (E : WriterEnv)

def resize (w : Writer) (sblen rblen : Nat) : Writer × Bool :=
  if w.nextSblen = sblen ∧ w.nextRblen = rblen then (w, true)
  else if sblen = 0 then (w, false)
  else if (sblen + rblen) % 18446744073709551616 > E.maxBlockLength then (w, false)
  else ({ w with nextSblen := sblen, nextRblen := rblen }, true)

/-- The constructor; `none` if the writer is not valid. -/
def create (nSourcePackets nRepairPackets : Nat) (sbn : UInt16) : Option Writer :=
  match Writer.resize E { curSbn := sbn } nSourcePackets nRepairPackets with
  | (w, true) => some w
  | (_, false) => none

def validateFecPacket (pp : OutPacket) : Except Fault Packet.Fec :=
  if !pp.prepared then .error (.panic "fec writer: unexpected packet: should be prepared")
  else if pp.composed then .error (.panic "fec writer: unexpected packet: should not be composed")
  else
    match pp.fec with
    | none => .error (.panic "fec writer: unexpected non-fec packet")
    | some fec =>
      if fec.fecScheme ≠ E.fecScheme then .error (.panic "fec writer: unexpected packet fec scheme")
      else .ok fec

def fillPacketFecFields (w : Writer) (fec : Packet.Fec) (packN : Nat) : Packet.Fec :=
  { fec with
    encodingSymbolId := packN % 65536
    sourceBlockNumber := w.curSbn
    sourceBlockLength := w.curSblen
    blockLength := (w.curSblen + w.curRblen) % 18446744073709551616 }

/-! ## Begin of a block -/

def applySizes (w : Writer) (sblen rblen payloadSize : Nat) : Writer × Bool :=
  if payloadSize = 0 then ({ w with alive := false }, false)
  else if w.repairBlock.length = rblen then
    ({ w with curSblen := sblen, curRblen := rblen, curPayloadSize := payloadSize }, true)
  else if !E.resizes w.resizings then ({ w with alive := false, resizings := w.resizings + 1 }, false)
  else
    ({ w with
      repairBlock := w.repairBlock.take rblen ++ List.replicate (rblen - w.repairBlock.length) none
      resizings := w.resizings + 1
      curSblen := sblen, curRblen := rblen, curPayloadSize := payloadSize }, true)

def beginBlock (w : Writer) (payloadSize : Nat) : Writer × Bool :=
  match w.applySizes E w.nextSblen w.nextRblen payloadSize with
  | (w, false) => (w, false)
  | (w, true) =>
    let number := w.begun
    let w := { w with begun := number + 1, source := [] }
    if !E.begins number w.curSblen w.curRblen w.curPayloadSize then ({ w with alive := false }, false) else (w, true)

/-! ## End of a block -/

def makeRepairPacket (w : Writer) (index : Nat) : Except Fault (Option OutPacket) :=
  match E.newPacket w.begun index with
  | none => .ok none
  | some packet => do
    let packet : OutPacket := { toPacket := packet, prepared := true }
    let fec ← validateFecPacket E packet
    .ok (some { packet with fec := some (w.fillPacketFecFields fec (w.curSblen + index)) })

def makeRepairPackets (w : Writer) : Except Fault Writer := do
  let block ← (List.range w.curRblen).mapM fun i => do
    match ← w.makeRepairPacket E i, w.repairBlock[i]? with
    | some rp, some _ => .ok (some rp)
    | none, some old => .ok old
    | _, none => .error (.panic "array: subscript out of range")
  .ok { w with repairBlock := block }

/-- `fill` writes the symbols into the payloads of the repair packets. -/
def encodeRepairPackets (w : Writer) : Writer :=
  { w with
    repairBlock := w.repairBlock.mapIdx fun i place => place.map fun rp =>
      { rp with fec := rp.fec.map fun fec => { fec with payload := E.encode w.source w.curRblen i } } }

def composePacket (msg : String) (pp : OutPacket) : Except Fault OutPacket :=
  if !E.composes pp then .error (.panic msg) else .ok { pp with composed := true }

def composeRepairPackets (w : Writer) : Except Fault Writer := do
  let block ← w.repairBlock.mapM fun
    | none => .ok none
    | some rp => do
      let rp ← composePacket E "fec writer: can't compose repair packet" rp
      .ok (some rp)
  .ok { w with repairBlock := block }

def writeRepairPackets (w : Writer) : Writer :=
  { w with out := w.out ++ w.repairBlock.filterMap id, repairBlock := List.replicate w.repairBlock.length none }

def endBlock (w : Writer) : Except Fault Writer := do
  let w ← w.makeRepairPackets E
  let w ← (w.encodeRepairPackets E).composeRepairPackets E
  .ok w.writeRepairPackets

def nextBlock (w : Writer) : Writer := { w with curSbn := w.curSbn + 1, curPacket := 0 }

/-! ## Writing -/

def writeSourcePacket (w : Writer) (pp : OutPacket) (fec : Packet.Fec) : Except Fault Writer := do
  let pp ← composePacket E "fec writer: can't compose source packet"
    { pp with fec := some (w.fillPacketFecFields fec w.curPacket) }
  .ok { w with source := w.source ++ [fec.payload], out := w.out ++ [pp] }

/-- `write` of a packet whose block has begun. -/
def writeInBlock (w : Writer) (pp : OutPacket) (fec : Packet.Fec) : Except Fault Writer :=
  if fec.payload.length ≠ w.curPayloadSize then .ok { w with alive := false }
  else do
    let w ← w.writeSourcePacket E pp fec
    let w := { w with curPacket := w.curPacket + 1 }
    if w.curPacket = w.curSblen then do
      let w ← w.endBlock E
      .ok w.nextBlock
    else .ok w

def write (w : Writer) (pp : OutPacket) : Except Fault Writer :=
  if !w.alive then .ok w
  else
    match validateFecPacket E pp with
    | .error fault => .error fault
    | .ok fec =>
      if w.curPacket = 0 then
        match w.beginBlock E fec.payload.length with
        | (w, false) => .ok w
        | (w, true) => w.writeInBlock E pp fec
      else w.writeInBlock E pp fec

end Writer
end Roc.Fec
