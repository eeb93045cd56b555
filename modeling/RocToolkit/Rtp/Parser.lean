import RocToolkit.Lib.Memory
import RocToolkit.Packet.Parsers
import RocToolkit.Rtp.Headers

/-!
# RocToolkit.Rtp.Parser

`rtp::Parser` and `fec::Parser` as they read the buffer of a packet through pointers. `Packet.Parsers`
says which bytes end up where; here every access is checked, the parts of a packet are windows of its
buffer and a flag that is added twice is a panic.

The result for hostile input is `parse_eq`: whatever the bytes, the parser makes no access outside the
buffer, and it takes exactly the packets that satisfy `Sized`, the sum of the four lengths that the sender
chooses. `sized_iff_wellFormed` says what that sum means.
-/

namespace Roc
namespace Packet

open Roc.Core (Slice)

structure Span where
  off : Nat
  size : Nat
deriving DecidableEq, Repr

def Span.of (s : Slice) : Span := ⟨s.off, s.size⟩

/-- The bytes of a window of `mem`. -/
def Span.bytes (w : Span) (mem : List UInt8) : List UInt8 := Memory.read mem w.off w.size

/-- `packet::RTP`; `padding` may be a null slice. -/
structure RtpParts where
  sourceId : UInt32 := 0
  seqnum : UInt16 := 0
  streamTimestamp : UInt32 := 0
  marker : Bool := false
  payloadType : Nat := 0
  header : Span
  payload : Span
  padding : Option Span := none
deriving DecidableEq, Repr

/-- `packet::FEC`. -/
structure FecParts where
  fecScheme : FecScheme
  encodingSymbolId : Nat := 0
  sourceBlockNumber : UInt16 := 0
  sourceBlockLength : Nat := 0
  blockLength : Nat := 0
  payloadId : Option Span := none
  payload : Span
deriving DecidableEq, Repr

/-- What a packet has besides its buffer; `rtp` and `fec` are present with their flags. -/
structure Parts where
  rtp : Option RtpParts := none
  fec : Option FecParts := none
  audio : Bool := false
  repair : Bool := false
deriving DecidableEq, Repr

/-- `Packet::add_flags`, for a flag that is set or not. -/
def addFlag (isSet : Bool) : Except Fault Unit :=
  if isSet then .error (.panic "packet: can't add flag more than once") else .ok ()

@[simp] theorem addFlag_false : addFlag false = .ok () := rfl

/-- `IParser::parse`: the packet with what was found, and whether it is accepted. -/
abbrev SliceParser := Parts → Slice → Except Fault (Parts × Bool)

def sliceParseInner (inner : Option SliceParser) (packet : Parts) (payload : Slice) : Except Fault (Parts × Bool) :=
  match inner with
  | none => .ok (packet, true)
  | some parse => parse packet payload

end Packet

namespace Fec

open Roc.Core (Slice)
open Packet

/-- Where the payload id begins in a buffer of `size` bytes. -/
def idAt (pos : PayloadPos) (idSize size : Nat) : Nat :=
  match pos with
  | .header => 0
  | .footer => size - idSize

def payloadOf (pos : PayloadPos) (idSize : Nat) (buffer : Slice) : Except Fault Slice :=
  match pos with
  | .header => buffer.subslice idSize buffer.size
  | .footer => buffer.subslice 0 (buffer.size - idSize)

/-- `fec::Parser::parse`. -/
def parse (id : PayloadId) (repair : Bool) (pos : PayloadPos) (inner : Option SliceParser) :
    SliceParser := fun packet buffer => do
  if buffer.size < id.size then return (packet, false)
  let bytes ← buffer.copy (idAt pos id.size buffer.size) id.size
  if repair then addFlag packet.repair
  addFlag packet.fec.isSome
  let payload ← payloadOf pos id.size buffer
  let fec : FecParts :=
    { fecScheme := id.fecScheme
      encodingSymbolId := id.esi bytes
      -- `blknum_t` has 16 bits
      sourceBlockNumber := UInt16.ofNat (id.sbn bytes)
      sourceBlockLength := id.k bytes
      blockLength := id.n bytes
      payload := Span.of payload }
  sliceParseInner inner { packet with fec := some fec, repair := packet.repair || repair } payload

def restOf (pos : PayloadPos) (idSize : Nat) (buffer : Slice) : Slice where
  buf := buffer.buf
  off := match pos with
    | .header => buffer.off + min idSize buffer.size
    | .footer => buffer.off
  size := buffer.size - idSize
  fits := by have := buffer.fits; cases pos <;> simp only <;> omega

variable {pos : PayloadPos}

theorem payloadOf_eq {idSize : Nat} {buffer : Slice} (h : idSize ≤ buffer.size) :
    payloadOf pos idSize buffer = .ok (restOf pos idSize buffer) := by
  cases pos with
  | header =>
    rw [payloadOf, Slice.subslice_eq h (Nat.le_refl _)]
    simp only [restOf, Nat.min_eq_left h]
  | footer =>
    rw [payloadOf, Slice.subslice_eq (Nat.zero_le _) (Nat.sub_le _ _)]
    rfl

def fecOf (id : PayloadId) (pos : PayloadPos) (buffer : Slice) : FecParts :=
  let bytes := (buffer.buf.drop (buffer.off + idAt pos id.size buffer.size)).take id.size
  { fecScheme := id.fecScheme
    encodingSymbolId := id.esi bytes
    sourceBlockNumber := UInt16.ofNat (id.sbn bytes)
    sourceBlockLength := id.k bytes
    blockLength := id.n bytes
    payload := Span.of (restOf pos id.size buffer) }

theorem parse_eq {id : PayloadId} {repair : Bool} {inner : Option SliceParser}
    {packet : Parts} {s : Slice} (hfec : packet.fec = none) (hrepair : packet.repair = false) :
    parse id repair pos inner packet s = if id.size ≤ s.size then
        sliceParseInner inner
          { packet with fec := some (fecOf id pos s), repair := packet.repair || repair }
          (restOf pos id.size s)
      else .ok (packet, false) := by
  by_cases h : id.size ≤ s.size
  · have hcopy := Slice.copy_ok (s := s) (i := idAt pos id.size s.size) (n := id.size)
      (by cases pos <;> simp only [idAt] <;> omega)
    simp [parse, hfec, hrepair, Nat.not_lt.mpr h, hcopy, payloadOf_eq h, h, fecOf]
  · simp [parse, Nat.lt_of_not_ge h, h]

end Fec

namespace Rtp

open Roc.Core (Slice)
open Packet

/-- The size of the header with its extension; `none` if the buffer does not have it all. -/
def fullHeaderSize (header : Header) (buffer : Slice) : Except Fault (Option Nat) := do
  let headerSize := header.headerSize + (if header.hasExtension then ExtentionHeader.codec.width else 0)
  if buffer.size < headerSize then return none
  let headerSize ← if header.hasExtension then do
      let extension ← buffer.read ExtentionHeader.codec header.headerSize
      pure (headerSize + extension.dataSize)
    else pure headerSize
  if buffer.size < headerSize then return none
  return some headerSize

/-- The size of the padding after a header of `payloadBegin` bytes; `none` if it cannot be. -/
def padSize (header : Header) (buffer : Slice) (payloadBegin : Nat) : Except Fault (Option Nat) := do
  if !header.hasPadding then return some 0
  if payloadBegin = buffer.size then return none
  let padSize := (← buffer.read Codec.u8 (buffer.size - 1)).toNat
  if padSize = 0 then return none
  if buffer.size - payloadBegin < padSize then return none
  return some padSize

def fill (isAudio : UInt8 → Bool) (header : Header) (packet : Parts) (buffer : Slice)
    (headerSize padSize : Nat) : Except Fault (Parts × Slice) := do
  let payloadEnd := buffer.size - padSize
  addFlag packet.rtp.isSome
  let head ← buffer.subslice 0 headerSize
  let payload ← buffer.subslice headerSize payloadEnd
  let padding ← if padSize = 0 then pure none else do
    let padding ← buffer.subslice payloadEnd (payloadEnd + padSize)
    pure (some (Span.of padding))
  let rtp : RtpParts :=
    { sourceId := header.ssrc
      seqnum := header.seqnum
      streamTimestamp := header.timestamp
      marker := header.marker
      payloadType := header.payloadType.toNat
      header := Span.of head
      payload := Span.of payload
      padding }
  if isAudio header.payloadType then addFlag packet.audio
  return ({ packet with rtp := some rtp, audio := packet.audio || isAudio header.payloadType }, payload)

/-- `rtp::Parser::parse`; `isAudio` tells the payload types that the encoding map knows as audio. -/
def parse (isAudio : UInt8 → Bool) (inner : Option SliceParser) : SliceParser := fun packet buffer => do
    if buffer.size < Header.codec.width then return (packet, false)
    let header ← buffer.read Header.codec 0
    if header.version ≠ V2 then return (packet, false)
    match ← fullHeaderSize header buffer with
    | none => return (packet, false)
    | some headerSize =>
      match ← padSize header buffer headerSize with
      | none => return (packet, false)
      | some pad =>
        let (packet, payload) ← fill isAudio header packet buffer headerSize pad
        sliceParseInner inner packet payload

/-! ## Which buffers are accepted -/

section
variable (s : Slice)

def headerOf : Header := s.peek Header.codec 0

def extensionLen : Nat :=
  if (headerOf s).hasExtension then
    4 + (s.peek ExtentionHeader.codec (headerOf s).headerSize).dataSize
  else 0

def headerLen : Nat := (headerOf s).headerSize + extensionLen s

def paddingLen : Nat := if (headerOf s).hasPadding then (s.peek Codec.u8 (s.size - 1)).toNat else 0

structure Sized : Prop where
  fixed : 12 ≤ s.size
  version : (headerOf s).version = V2
  padded : (headerOf s).hasPadding → 0 < paddingLen s
  fits : headerLen s + paddingLen s ≤ s.size

instance : Decidable (Sized s) := decidable_of_iff (12 ≤ s.size ∧ (headerOf s).version = V2 ∧
      ((headerOf s).hasPadding → 0 < paddingLen s) ∧ headerLen s + paddingLen s ≤ s.size)
    ⟨fun ⟨a, b, c, d⟩ => ⟨a, b, c, d⟩, fun ⟨a, b, c, d⟩ => ⟨a, b, c, d⟩⟩

variable {s}

open ExtentionHeader

theorem fullHeaderSize_eq :
    fullHeaderSize (headerOf s) s = .ok (if headerLen s ≤ s.size then some (headerLen s) else none) := by
  by_cases hext : (headerOf s).hasExtension
  · by_cases hsize : s.size < (headerOf s).headerSize + 4
    · have : ¬ headerLen s ≤ s.size := by simp only [headerLen, extensionLen, hext, if_pos]; omega
      simp [fullHeaderSize, hext, hsize, this]
    · -- the extension header is in the buffer, so its length may be read
      have hread : s.read codec (headerOf s).headerSize = .ok _ := Slice.read_ok (by rw [codec_width]; omega)
      simp only [fullHeaderSize, hext, if_pos, codec_width, hsize, if_neg,
        not_false_eq_true, hread, ok_bind, pure_eq_ok, headerLen, extensionLen, Nat.add_assoc]
      split <;> split <;> first | rfl | omega
  · simp only [fullHeaderSize, hext, headerLen, extensionLen, Bool.false_eq_true, if_false,
      Nat.add_zero, pure_eq_ok, ok_bind]
    split <;> split <;> first | rfl | omega

theorem padSize_eq {n : Nat} (hn : n ≤ s.size) (hpos : 0 < s.size) : padSize (headerOf s) s n =
      .ok (if ((headerOf s).hasPadding → 0 < paddingLen s) ∧ n + paddingLen s ≤ s.size then
        some (paddingLen s) else none) := by
  by_cases hpad : (headerOf s).hasPadding
  · have hread : s.read Codec.u8 (s.size - 1) = .ok (s.peek Codec.u8 (s.size - 1)) :=
      Slice.read_ok (by change s.size - 1 + 1 ≤ s.size; omega)
    simp only [padSize, hpad, Bool.not_true, Bool.false_eq_true, if_false, hread, ok_bind, pure_eq_ok,
      paddingLen, if_pos, forall_const]
    generalize (s.peek Codec.u8 (s.size - 1)).toNat = pad
    repeat' split
    all_goals first | rfl | omega
  · simp [padSize, hpad, paddingLen, hn]

variable (s) in
def rtpOf : RtpParts where
  sourceId := (headerOf s).ssrc
  seqnum := (headerOf s).seqnum
  streamTimestamp := (headerOf s).timestamp
  marker := (headerOf s).marker
  payloadType := (headerOf s).payloadType.toNat
  header := ⟨s.off, headerLen s⟩
  payload := ⟨s.off + headerLen s, s.size - paddingLen s - headerLen s⟩
  padding := if paddingLen s = 0 then none else some ⟨s.off + (s.size - paddingLen s), paddingLen s⟩

variable (s) in
def payloadOf (h : Sized s) : Slice where
  buf := s.buf
  off := s.off + headerLen s
  size := s.size - paddingLen s - headerLen s
  fits := by have := s.fits; have := h.fits; omega

def filled (isAudio : UInt8 → Bool) (packet : Parts) (s : Slice) : Parts :=
  { packet with
    rtp := some (rtpOf s)
    audio := packet.audio || isAudio (headerOf s).payloadType }

section
variable {packet : Parts} (hrtp : packet.rtp = none) (haudio : packet.audio = false)
include hrtp haudio

variable {isAudio : UInt8 → Bool}

theorem fill_eq (h : Sized s) : fill isAudio (headerOf s) packet s (headerLen s) (paddingLen s) =
      .ok (filled isAudio packet s, payloadOf s h) := by
  have hfits := h.fits
  have hhead := Slice.subslice_eq (s := s) (Nat.zero_le (headerLen s)) (by omega)
  have hpayload : s.subslice (headerLen s) (s.size - paddingLen s) = .ok (payloadOf s h) :=
    Slice.subslice_eq (by omega) (by omega)
  have hpadding := Slice.subslice_eq (s := s) (Nat.le_add_right (s.size - paddingLen s) (paddingLen s)) (by omega)
  by_cases hzero : paddingLen s = 0
  · rw [hzero, Nat.sub_zero] at hpayload
    simp [fill, hrtp, haudio, hhead, hpayload, hzero, filled, rtpOf, Span.of, payloadOf]
  · simp [fill, hrtp, haudio, hhead, hpayload, hpadding, hzero, filled, rtpOf, Span.of, payloadOf]

theorem parse_eq {inner : Option SliceParser} : parse isAudio inner packet s =
      if h : Sized s then sliceParseInner inner (filled isAudio packet s) (payloadOf s h)
      else .ok (packet, false) := by
  by_cases hfixed : s.size < 12
  · have hno : ¬ Sized s := fun h => absurd h.fixed (by omega)
    simp [parse, hfixed, hno]
  have hread : s.read Header.codec 0 = .ok (headerOf s) := Slice.read_ok (by rw [Header.codec_width]; omega)
  by_cases hversion : (headerOf s).version = V2
  case neg =>
    have hno : ¬ Sized s := fun h => hversion h.version
    simp [parse, hfixed, hread, hversion, hno]
  by_cases hlen : headerLen s ≤ s.size
  case neg =>
    have hno : ¬ Sized s := fun h => hlen (by have := h.fits; omega)
    simp [parse, hfixed, hread, hversion, fullHeaderSize_eq, hlen, hno]
  by_cases hpad : ((headerOf s).hasPadding → 0 < paddingLen s) ∧ headerLen s + paddingLen s ≤ s.size
  case neg =>
    have hno : ¬ Sized s := fun h => hpad ⟨h.padded, h.fits⟩
    simp [parse, hfixed, hread, hversion, fullHeaderSize_eq, hlen, padSize_eq hlen (by omega), hpad, hno]
  have h : Sized s := ⟨by omega, hversion, hpad.1, hpad.2⟩
  have hpadSize : padSize (headerOf s) s (headerLen s) = .ok (some (paddingLen s)) := by
    rw [padSize_eq hlen (by omega), if_pos hpad]
  simp [parse, hfixed, hread, hversion, fullHeaderSize_eq, hlen, hpadSize, fill_eq hrtp haudio h, h]

end
end

/-! ## Well-formed packets -/

/-- `bytes` is an RTP packet of version 2 that is made of these parts, one after the other. -/
structure IsPacket (bytes fixed csrcs extension payload padding : List UInt8) : Prop where
  split : bytes = fixed ++ (csrcs ++ (extension ++ (payload ++ padding)))
  fixed_length : fixed.length = 12
  version : (Header.codec.decode fixed).version = V2
  csrcs_length : csrcs.length = 4 * (Header.codec.decode fixed).numCsrc
  extended : if (Header.codec.decode fixed).hasExtension then
      4 ≤ extension.length ∧
        extension.length = 4 + 4 * (ExtentionHeader.codec.decode extension).len.toNat
    else extension = []
  padded : if (Header.codec.decode fixed).hasPadding then
      ∃ fill count, padding = fill ++ [count] ∧ count.toNat = padding.length
    else padding = []

def WellFormed (bytes : List UInt8) : Prop :=
  ∃ fixed csrcs extension payload padding, IsPacket bytes fixed csrcs extension payload padding

section
variable {s : Slice}

theorem drop_split (b : List UInt8) (m k : Nat) : b.drop m = (b.drop m).take k ++ b.drop (m + k) := by
  rw [← List.drop_drop, List.take_append_drop]

theorem headerOf_eq (h : 12 ≤ s.size) : headerOf s = Header.codec.decode s.bytes :=
  Slice.peek_eq_bytes (by rw [Header.codec_width]; omega)

theorem ExtentionHeader.dataSize_eq (h : ExtentionHeader) : h.dataSize = 4 * h.len.toNat := by
  rw [dataSize, Nat.shiftLeft_eq]; omega

theorem Sized.isPacket (h : Sized s) :
    IsPacket s.bytes (s.bytes.take 12) ((s.bytes.drop 12).take (4 * (headerOf s).numCsrc))
      ((s.bytes.drop (headerOf s).headerSize).take (extensionLen s))
      ((s.bytes.drop (headerLen s)).take (s.size - paddingLen s - headerLen s))
      (s.bytes.drop (s.size - paddingLen s)) := by
  have hfits := h.fits
  have hhead : Header.codec.decode (s.bytes.take 12) = headerOf s := by
    rw [headerOf_eq h.fixed]; exact Header.codec.decode_take _
  have hsize : (headerOf s).headerSize = 12 + 4 * (headerOf s).numCsrc := by
    rw [Header.headerSize]; omega
  have hlen : headerLen s = (headerOf s).headerSize + extensionLen s := rfl
  refine ⟨?_, ?_, ?_, ?_, ?_, ?_⟩
  · have hpayload := drop_split s.bytes (headerLen s) (s.size - paddingLen s - headerLen s)
    rw [show headerLen s + (s.size - paddingLen s - headerLen s) = s.size - paddingLen s by omega] at hpayload
    rw [← hpayload, hlen, ← drop_split, hsize, ← drop_split, List.take_append_drop]
  · rw [List.length_take, Slice.length_bytes]; have := h.fixed; omega
  · rw [hhead]; exact h.version
  · rw [hhead, List.length_take, List.length_drop, Slice.length_bytes]; omega
  · rw [hhead]
    split
    case isTrue hext =>
      have hext4 : extensionLen s = 4 + (s.peek ExtentionHeader.codec (headerOf s).headerSize).dataSize := if_pos hext
      have hdecode : ExtentionHeader.codec.decode ((s.bytes.drop (headerOf s).headerSize).take (extensionLen s)) =
          s.peek ExtentionHeader.codec (headerOf s).headerSize := by
        rw [Slice.peek_eq_bytes (by rw [ExtentionHeader.codec_width]; omega),
          ← ExtentionHeader.codec.decode_take, List.take_take, ExtentionHeader.codec_width,
          Nat.min_eq_left (by omega)]
        exact ExtentionHeader.codec.decode_take _
      have hdata := ExtentionHeader.dataSize_eq (s.peek ExtentionHeader.codec (headerOf s).headerSize)
      rw [List.length_take, List.length_drop, Slice.length_bytes, hdecode]
      omega
    case isFalse hext =>
      have hzero : extensionLen s = 0 := if_neg hext
      rw [hzero, List.take_zero]
  · rw [hhead]
    split
    case isTrue hpad =>
      have hpos := h.padded hpad
      have hcount : paddingLen s = (s.peek Codec.u8 (s.size - 1)).toNat := if_pos hpad
      refine ⟨(s.bytes.drop (s.size - paddingLen s)).take (paddingLen s - 1), s.peek Codec.u8 (s.size - 1), ?_, ?_⟩
      · rw [Slice.peek_eq_bytes (by change s.size - 1 + 1 ≤ s.size; omega)]
        have hlast := drop_split s.bytes (s.size - paddingLen s) (paddingLen s - 1)
        rw [show s.size - paddingLen s + (paddingLen s - 1) = s.size - 1 by omega] at hlast
        have hone : (s.bytes.drop (s.size - 1)).length = 1 := by
          rw [List.length_drop, Slice.length_bytes]; omega
        obtain ⟨c, hc⟩ := List.length_eq_one_iff.mp hone
        rw [hc] at hlast ⊢
        exact hlast
      · rw [← hcount, List.length_drop, Slice.length_bytes]; omega
    case isFalse hpad =>
      have hzero : paddingLen s = 0 := if_neg hpad
      rw [hzero, Nat.sub_zero, ← Slice.length_bytes s, List.drop_length]

section
variable {fixed csrcs extension payload padding : List UInt8}

section
variable (h : IsPacket s.bytes fixed csrcs extension payload padding)
include h

theorem IsPacket.size_eq : s.size = 12 + csrcs.length + extension.length + payload.length + padding.length := by
  have := congrArg List.length h.split
  simp only [Slice.length_bytes, List.length_append, h.fixed_length] at this
  omega

theorem IsPacket.headerOf_eq : headerOf s = Header.codec.decode fixed := by
  have hsize := h.size_eq
  rw [Rtp.headerOf_eq (by omega), h.split, Codec.decode_append _ _ (by simp [h.fixed_length])]

theorem IsPacket.headerSize_eq : (headerOf s).headerSize = 12 + csrcs.length := by
  rw [h.headerOf_eq, Header.headerSize, h.csrcs_length]; omega

theorem IsPacket.extensionLen_eq : extensionLen s = extension.length := by
  have hext := h.extended
  have hsize := h.size_eq
  rw [← h.headerOf_eq] at hext
  rw [extensionLen]
  split at hext
  case isTrue hflag =>
    have hdrop : s.bytes.drop (12 + csrcs.length) = extension ++ (payload ++ padding) := by
      have hlen : (fixed ++ csrcs).length = 12 + csrcs.length := by
        rw [List.length_append, h.fixed_length]
      rw [h.split, ← List.append_assoc fixed csrcs, ← hlen, List.drop_left]
    rw [if_pos hflag, h.headerSize_eq, Slice.peek_eq_bytes (by rw [ExtentionHeader.codec_width]; omega), hdrop,
      Codec.decode_append _ _ (by rw [ExtentionHeader.codec_width]; omega), ExtentionHeader.dataSize_eq]
    exact hext.2.symm
  case isFalse hflag => rw [if_neg hflag, hext, List.length_nil]

theorem IsPacket.paddingLen_eq : paddingLen s = padding.length := by
  have hpad := h.padded
  have hsize := h.size_eq
  rw [← h.headerOf_eq] at hpad
  rw [paddingLen]
  split at hpad
  case isTrue hflag =>
    obtain ⟨fill, count, hp, hcount⟩ := hpad
    have hfill : padding.length = fill.length + 1 := by rw [hp, List.length_append]; rfl
    have hsplit : s.bytes = (fixed ++ csrcs ++ extension ++ payload ++ fill) ++ [count] := by
      rw [h.split, hp]; simp only [List.append_assoc]
    have hlen : (fixed ++ csrcs ++ extension ++ payload ++ fill).length = s.size - 1 := by
      simp only [List.length_append, h.fixed_length]; omega
    rw [if_pos hflag, Slice.peek_eq_bytes (by change s.size - 1 + 1 ≤ s.size; omega), hsplit, ← hlen,
      List.drop_left, ← hcount]
    rfl
  case isFalse hflag => rw [if_neg hflag, hpad, List.length_nil]

theorem IsPacket.sized : Sized s where
  fixed := by have := h.size_eq; omega
  version := by rw [h.headerOf_eq]; exact h.version
  padded := by
    intro hflag
    have hpad := h.padded
    rw [← h.headerOf_eq, if_pos hflag] at hpad
    obtain ⟨fill, count, hp, -⟩ := hpad
    rw [h.paddingLen_eq, hp, List.length_append]
    exact Nat.succ_pos _
  fits := by
    have := h.size_eq
    rw [headerLen, h.headerSize_eq, h.extensionLen_eq, h.paddingLen_eq]
    omega

end
end

theorem sized_iff_wellFormed : Sized s ↔ WellFormed s.bytes :=
  ⟨fun h => ⟨_, _, _, _, _, h.isPacket⟩, fun ⟨_, _, _, _, _, h⟩ => h.sized⟩

structure Covers (rtp : RtpParts) (s : Slice) : Prop where
  header : rtp.header.off = s.off
  payload : rtp.payload.off = rtp.header.off + rtp.header.size
  padding : ∀ padding, rtp.padding = some padding →
    padding.off = rtp.payload.off + rtp.payload.size ∧ padding.off + padding.size = s.off + s.size
  unpadded : rtp.padding = none → rtp.payload.off + rtp.payload.size = s.off + s.size

theorem covers_rtpOf (h : Sized s) : Covers (rtpOf s) s where
  header := rfl
  payload := rfl
  padding := by
    intro padding hp
    have hfits := h.fits
    simp only [rtpOf] at hp ⊢
    split at hp
    · cases hp
    · cases hp
      simp only
      omega
  unpadded := by
    intro hp
    have hfits := h.fits
    simp only [rtpOf] at hp ⊢
    split at hp
    · omega
    · cases hp

/-- `rtp::Parser::parse` of any bytes, alone or in front of a `fec::Parser`. -/
theorem parse_any (isAudio : UInt8 → Bool) (inner : Option (PayloadId × Bool × PayloadPos))
    (packet : Parts) (hrtp : packet.rtp = none) (haudio : packet.audio = false)
    (hfec : packet.fec = none) (hrepair : packet.repair = false) (s : Slice) :
    ∃ packet' accepted,
      parse isAudio (inner.map fun f => Fec.parse f.1 f.2.1 f.2.2 none) packet s =
        .ok (packet', accepted) ∧
      (packet'.rtp.isSome ↔ WellFormed s.bytes) ∧
      (accepted = true ↔ WellFormed s.bytes ∧
        ∀ f ∈ inner, ∀ rtp ∈ packet'.rtp, f.1.size ≤ rtp.payload.size) ∧
      ∀ rtp ∈ packet'.rtp, Covers rtp s := by
  rw [parse_eq hrtp haudio, ← sized_iff_wellFormed]
  split
  case isFalse h => exact ⟨packet, false, rfl, by simp [hrtp, h], by simp [h], by simp [hrtp]⟩
  case isTrue h =>
    have hcovers : ∀ rtp ∈ some (rtpOf s), Covers rtp s := by
      intro rtp hr
      cases hr
      exact covers_rtpOf h
    cases inner with
    | none => exact ⟨_, true, rfl, by simp [filled, h], by simp [h], hcovers⟩
    | some f =>
      simp only [Option.map_some, sliceParseInner]
      rw [Fec.parse_eq (show (filled isAudio packet s).fec = none from hfec) hrepair]
      split
      case isTrue hid =>
        exact ⟨_, true, rfl, by simp [filled, h], by simpa [filled, h, rtpOf, payloadOf] using hid, hcovers⟩
      case isFalse hid =>
        exact ⟨_, false, rfl, by simp [filled, h], by simpa [filled, h, rtpOf, payloadOf] using hid, hcovers⟩

def samplePacket : List UInt8 :=
  [0xb1, 0x8a, 0x12, 0x34, 0, 0, 0, 1, 0, 0, 0, 2, 0, 0, 0, 3, 0xbe, 0xde, 0, 1, 9, 9, 9, 9, 5, 6, 7, 0, 2]

theorem parse_any_sample :
    ∃ packet' accepted,
      parse (fun pt => pt == 10) none {} (Slice.ofBuffer samplePacket) = .ok (packet', accepted) ∧
      (packet'.rtp.isSome ↔ WellFormed (Slice.ofBuffer samplePacket).bytes) ∧
      (accepted = true ↔ WellFormed (Slice.ofBuffer samplePacket).bytes ∧
        ∀ f ∈ (none : Option (PayloadId × Bool × PayloadPos)), ∀ rtp ∈ packet'.rtp,
          f.1.size ≤ rtp.payload.size) ∧
      ∀ rtp ∈ packet'.rtp, Covers rtp (Slice.ofBuffer samplePacket) :=
  parse_any (fun pt => pt == 10) none {} rfl rfl rfl rfl (Slice.ofBuffer samplePacket)

end

end Rtp
end Roc
