import RocToolkit.Lib.Codec
import RocToolkit.Rtcp.Reports

/-!
# RocToolkit.Packet.Parsers

`packet::Packet` and the parsers of inbound packets: `rtp::Parser`, `fec::Parser` for the payload ids of
both FEC schemes, and `rtcp::Parser`. A parser fills the packet in from a buffer, or rejects it. The
header of one parser is taken off before the rest goes to the inner parser.
-/

namespace Roc

inductive FecScheme where
  | none | reedSolomonM8 | ldpcStaircase
deriving DecidableEq, Repr

namespace Packet

/-- `packet::RTP`. -/
structure Rtp where
  sourceId : UInt32
  seqnum : UInt16
  streamTimestamp : UInt32
  marker : Bool
  payloadType : UInt8
  header : List UInt8
  payload : List UInt8
  padding : List UInt8
deriving DecidableEq, Repr

/-- `packet::FEC`. -/
structure Fec where
  fecScheme : FecScheme
  encodingSymbolId : Nat
  sourceBlockNumber : UInt16
  sourceBlockLength : Nat
  blockLength : Nat
  payload : List UInt8
deriving DecidableEq, Repr

/-- `packet::UDP`. -/
structure Udp where
  srcAddr : SocketAddr
  dstAddr : SocketAddr
deriving DecidableEq, Repr

end Packet

/-- A packet is its buffer, and what was found in it. `rtp`, `fec` and `rtcp` are present with the flags
that say so. -/
structure Packet where
  buffer : List UInt8 := []
  udp : Option Packet.Udp := none
  rtp : Option Packet.Rtp := none
  fec : Option Packet.Fec := none
  rtcp : Option (List UInt8) := none
  audio : Bool := false
  repair : Bool := false
  control : Bool := false
deriving DecidableEq, Repr

namespace Packet

/-- `Packet::source_id`, if `has_source_id`. -/
def sourceId (packet : Packet) : Option UInt32 := packet.rtp.map Rtp.sourceId

/-- `IParser::parse`; `none` if the packet is rejected. -/
abbrev Parser := Packet → List UInt8 → Option Packet

def parseInner (inner : Option Parser) (packet : Packet) (payload : List UInt8) : Option Packet :=
  match inner with
  | none => some packet
  | some parse => parse packet payload

/-! ## RTP -/

def rtpHeaderSize : Nat := 12

def extensionHeaderSize : Nat := 4

def rtpPayloadEnd (hasPadding : Bool) (buffer : List UInt8) (headerSize : Nat) : Option Nat :=
  if !hasPadding then some buffer.length
  else if headerSize = buffer.length then none
  else
    let padSize := (Codec.u8.decode (buffer.drop (buffer.length - 1))).toNat
    if padSize = 0 then none
    else if buffer.length - headerSize < padSize then none
    else some (buffer.length - padSize)

def rtpFullHeaderSize (buffer : List UInt8) : Option Nat :=
  let flags := Codec.u8.decode buffer
  let headerSize := rtpHeaderSize + 4 * (flags &&& 0xf).toNat
  if flags &&& 0x10 = 0 then
    if buffer.length < headerSize then none else some headerSize
  else if buffer.length < headerSize + extensionHeaderSize then none
  else
    let words := (Codec.be16.decode (buffer.drop (headerSize + 2))).toNat
    let headerSize := headerSize + extensionHeaderSize + 4 * words
    if buffer.length < headerSize then none else some headerSize

/-- `rtp::Parser`; `isAudio` tells the payload types that the encoding map knows as audio. -/
def parseRtp (isAudio : UInt8 → Bool) (inner : Option Parser) : Parser := fun packet buffer => do
  if buffer.length < rtpHeaderSize then none
  let flags := Codec.u8.decode buffer
  if flags >>> 6 &&& 3 ≠ 2 then none
  let headerSize ← rtpFullHeaderSize buffer
  let payloadEnd ← rtpPayloadEnd (flags &&& 0x20 ≠ 0) buffer headerSize
  let mpt := Codec.u8.decode (buffer.drop 1)
  let rtp : Rtp :=
    { sourceId := Codec.be32.decode (buffer.drop 8)
      seqnum := Codec.be16.decode (buffer.drop 2)
      streamTimestamp := Codec.be32.decode (buffer.drop 4)
      marker := mpt &&& 0x80 ≠ 0
      payloadType := mpt &&& 0x7f
      header := buffer.take headerSize
      payload := (buffer.take payloadEnd).drop headerSize
      padding := buffer.drop payloadEnd }
  parseInner inner
    { packet with rtp := some rtp, audio := packet.audio || isAudio rtp.payloadType } rtp.payload

/-! ## FEC -/

structure PayloadId where
  size : Nat
  fecScheme : FecScheme
  sbn : List UInt8 → Nat
  esi : List UInt8 → Nat
  k : List UInt8 → Nat
  n : List UInt8 → Nat

def ldpcSourcePayloadId : PayloadId where
  size := 6
  fecScheme := .ldpcStaircase
  sbn bytes := Codec.beNat 2 bytes
  esi bytes := Codec.beNat 2 (bytes.drop 2)
  k bytes := Codec.beNat 2 (bytes.drop 4)
  n _ := 0

def ldpcRepairPayloadId : PayloadId where
  size := 8
  fecScheme := .ldpcStaircase
  sbn bytes := Codec.beNat 2 bytes
  esi bytes := Codec.beNat 2 (bytes.drop 2)
  k bytes := Codec.beNat 2 (bytes.drop 4)
  n bytes := Codec.beNat 2 (bytes.drop 6)

def rs8mPayloadId : PayloadId where
  size := 6
  fecScheme := .reedSolomonM8
  sbn bytes := Codec.beNat 3 bytes
  esi bytes := Codec.beNat 1 (bytes.drop 3)
  k bytes := Codec.beNat 2 (bytes.drop 4)
  n _ := 255

inductive PayloadPos where
  | header | footer
deriving DecidableEq, Repr

def PayloadPos.split (pos : PayloadPos) (size : Nat) (buffer : List UInt8) : List UInt8 × List UInt8 :=
  match pos with
  | .header => (buffer.take size, buffer.drop size)
  | .footer => (buffer.drop (buffer.length - size), buffer.take (buffer.length - size))

/-- `fec::Parser`. -/
def parseFec (id : PayloadId) (repair : Bool) (pos : PayloadPos) (inner : Option Parser) : Parser :=
  fun packet buffer => do
    if buffer.length < id.size then none
    let (bytes, payload) := pos.split id.size buffer
    let fec : Fec :=
      { fecScheme := id.fecScheme
        encodingSymbolId := id.esi bytes
        -- `blknum_t` has 16 bits
        sourceBlockNumber := UInt16.ofNat (id.sbn bytes)
        sourceBlockLength := id.k bytes
        blockLength := id.n bytes
        payload }
    parseInner inner { packet with fec := some fec, repair := packet.repair || repair } payload

/-! ## RTCP -/

/-- `rtcp::Parser`, for a buffer that is not null. -/
def parseRtcp : Parser := fun packet buffer =>
  some { packet with control := true, rtcp := some buffer }

end Packet
end Roc
