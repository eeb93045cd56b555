import RocToolkit.Core.Slice

/-!
# RocToolkit.Rtp.Headers

The packed classes of `roc_rtp/headers.h`: the fixed RTP header and the header of an extension. A record
holds its fields in host order and keeps its packed bytes raw; the accessors and the setters take them
apart with the shifts and masks of the source. The codec is the memory layout of the class.
-/

namespace Roc.Rtp

def V2 : UInt8 := 2

/-! ## RTP header -/

/-- `rtp::Header`, without the CSRCs that may follow. -/
structure Header where
  flags : UInt8 := 0
  mpt : UInt8 := 0
  seqnum : UInt16 := 0
  timestamp : UInt32 := 0
  ssrc : UInt32 := 0
deriving DecidableEq, Repr

namespace Header

def codec : Codec Header := (Codec.u8.pair (Codec.u8.pair (Codec.be16.pair (Codec.be32.pair Codec.be32)))).iso
    (fun p => ⟨p.1, p.2.1, p.2.2.1, p.2.2.2.1, p.2.2.2.2⟩)
    (fun h => (h.flags, h.mpt, h.seqnum, h.timestamp, h.ssrc)) (fun _ => rfl)

@[simp] theorem codec_width : codec.width = 12 := rfl

def numCsrc (h : Header) : Nat := ((h.flags >>> 0) &&& 0xf).toNat

def headerSize (h : Header) : Nat := 12 + h.numCsrc * 4

def version (h : Header) : UInt8 := (h.flags >>> 6) &&& 0x3

def hasPadding (h : Header) : Bool := h.flags &&& ((0x1 : UInt8) <<< 5) ≠ 0

def hasExtension (h : Header) : Bool := h.flags &&& ((0x1 : UInt8) <<< 4) ≠ 0

def payloadType (h : Header) : UInt8 := (h.mpt >>> 0) &&& 0x7f

def marker (h : Header) : Bool := h.mpt &&& ((0x1 : UInt8) <<< 7) ≠ 0

def setVersion (h : Header) (v : UInt8) : Except Fault Header :=
  if v &&& 0x3 ≠ v then .error (.panic "(v & Flag_VersionMask) != v")
  else .ok { h with flags := (h.flags &&& ~~~((0x3 : UInt8) <<< 6)) ||| (v <<< 6) }

def setPadding (h : Header) (v : Bool) : Header :=
  { h with flags := (h.flags &&& ~~~((0x1 : UInt8) <<< 5)) ||| ((if v then (1 : UInt8) else 0) <<< 5) }

def setPayloadType (h : Header) (pt : UInt8) : Except Fault Header :=
  if pt &&& 0x7f ≠ pt then .error (.panic "(pt & MPT_PayloadTypeMask) != pt")
  else .ok { h with mpt := (h.mpt &&& ~~~((0x7f : UInt8) <<< 0)) ||| (pt <<< 0) }

def setMarker (h : Header) (m : Bool) : Header :=
  { h with mpt := (h.mpt &&& ~~~((0x1 : UInt8) <<< 7)) ||| ((if m then (1 : UInt8) else 0) <<< 7) }

end Header

/-! ## Extension header -/

/-- `rtp::ExtentionHeader`. -/
structure ExtentionHeader where
  type : UInt16
  len : UInt16
deriving DecidableEq, Repr

namespace ExtentionHeader

def codec : Codec ExtentionHeader :=
  (Codec.be16.pair Codec.be16).iso (fun p => ⟨p.1, p.2⟩) (fun h => (h.type, h.len)) (fun _ => rfl)

@[simp] theorem codec_width : codec.width = 4 := rfl

def dataSize (h : ExtentionHeader) : Nat := h.len.toNat <<< 2

end ExtentionHeader
end Roc.Rtp
