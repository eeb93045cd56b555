import RocToolkit.Packet.Parsers

/-!
# RocToolkit.Packet.Order

Distances between numbers that wrap (roc_packet/units.h), and the order of packets that they give.
-/

namespace Roc.Packet

/-- `blknum_diff` and `seqnum_diff`. -/
def diff16 (a b : UInt16) : Int := (a - b).toBitVec.toInt

def blknumLt (a b : UInt16) : Bool := diff16 a b < 0

def blknumLe (a b : UInt16) : Bool := diff16 a b ≤ 0

/-- `stream_timestamp_t`: a position in the stream, in samples per channel. -/
abbrev StreamTimestamp := BitVec 32

/-- `stream_timestamp_diff`: `int32_t(a - b)`. -/
def streamTimestampDiff (a b : StreamTimestamp) : Int := (a - b).toInt

/-- `stream_timestamp_lt`. -/
def streamTimestampLt (a b : StreamTimestamp) : Bool := streamTimestampDiff a b < 0

def diff32 (a b : UInt32) : Int := streamTimestampDiff a.toBitVec b.toBitVec

/-- `RTP::compare`. -/
def Rtp.compare (a b : Rtp) : Ordering :=
  if diff16 a.seqnum b.seqnum < 0 then .lt else if a.seqnum = b.seqnum then .eq else .gt

/-- `FEC::compare`. -/
def Fec.compare (a b : Fec) : Ordering :=
  if blknumLt a.sourceBlockNumber b.sourceBlockNumber then .lt
  else if a.sourceBlockNumber = b.sourceBlockNumber then
    if a.encodingSymbolId < b.encodingSymbolId then .lt
    else if a.encodingSymbolId = b.encodingSymbolId then .eq
    else .gt
  else .gt

/-- `Packet::compare`. -/
def compare (a b : Packet) : Ordering :=
  match a.rtp, b.rtp with
  | some ra, some rb => ra.compare rb
  | _, _ =>
    match a.fec, b.fec with
    | some fa, some fb => fa.compare fb
    | _, _ => .eq

end Roc.Packet
