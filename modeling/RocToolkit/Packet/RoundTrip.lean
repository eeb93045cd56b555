import RocToolkit.Packet.Composers

/-!
# RocToolkit.Packet.RoundTrip

Composing a packet and parsing it again, for the chains of composers that the sender pipelines set up: RTP
alone, RTP in front of the footer of a FEC source packet, and the header of a FEC repair packet. A `Job` is
what a user of a composer does: align the buffer if asked to, prepare it, write the payload and the fields,
pad, compose.

`fec::Composer::prepare` checks for space on its own behalf and leaves the payload to the inner composer. When
there is none, as in front of repair packets, nobody checks for the payload.
-/

namespace Roc.Packet

open List

open Roc.Core (Slice)

open Composer Memory Rtp.Header Span UInt8

/-- The chains of `SenderEndpoint`. -/
inductive Chain where
  | rtp
  | source (id : PayloadIdFormat)
  | repair (id : PayloadIdFormat)

namespace Chain

def composer : Chain → Composer
  | rtp => .rtp .null
  | source id => .fec id false .footer (.rtp .null)
  | repair id => .fec id true .header .null

/-- The parsers of `ReceiverEndpoint`. -/
def parser (isAudio : UInt8 → Bool) : Chain → SliceParser
  | rtp => Rtp.parse isAudio none
  | source id => Fec.parse id.toPayloadId false .footer (some (Rtp.parse isAudio none))
  | repair id => Fec.parse id.toPayloadId true .header none

def payloadId : Chain → Option PayloadIdFormat
  | rtp => none
  | source id => some id
  | repair id => some id

def headerSize : Chain → Nat
  | rtp => 12
  | source _ => 12
  | repair id => id.size

def footerSize : Chain → Nat
  | rtp => 0
  | source id => id.size
  | repair _ => 0

def isRepair : Chain → Bool
  | repair _ => true
  | _ => false

end Chain

/-- What is to be composed, into which part of which memory. The fields are in range and the buffer is aligned
as the composer demands. -/
structure Job where
  chain : Chain
  base : Nat
  mem : List UInt8
  buffer : Span
  alignment : Option Nat
  payload : List UInt8
  paddingSize : Option Nat
  sourceId : UInt32
  seqnum : UInt16
  streamTimestamp : UInt32
  marker : Bool
  payloadType : Nat
  encodingSymbolId : Nat
  sourceBlockNumber : UInt16
  sourceBlockLength : Nat
  blockLength : Nat
  fits : buffer.off + buffer.size ≤ mem.length
  aligned : ∀ a ∈ alignment, 0 < a ∧ (base + buffer.off) % a = 0
  payloadType_lt : payloadType < 128
  encodingSymbolId_lt : ∀ id ∈ chain.payloadId, encodingSymbolId < id.esiBound
  sourceBlockLength_lt : sourceBlockLength < 2 ^ 16
  blockLength_lt : blockLength < 2 ^ 16

inductive Outcome where
  | notAligned
  | notPrepared
  | notPadded
  | notComposed
  | composed (packet : Parts) (mem : List UInt8) (window : Span)
deriving DecidableEq, Repr

namespace Job

def align (j : Job) : Except Fault (Option Span) :=
  match j.alignment with
  | none => .ok (some j.buffer)
  | some alignment => j.chain.composer.align j.base j.mem.length j.buffer 0 alignment

def prepare (j : Job) (buffer : Span) : Except Fault (Parts × Option Span) :=
  j.chain.composer.prepare j.mem.length {} buffer j.payload.length

/-- `Packet::payload`, of a packet that has been prepared. -/
def payloadWindow (packet : Parts) : Span :=
  match packet.rtp, packet.fec with
  | some part, _ => part.payload
  | none, some part => part.payload
  | none, none => ⟨0, 0⟩

def setFields (j : Job) (packet : Parts) : Parts :=
  { packet with
    rtp := packet.rtp.map fun part =>
      { part with
        sourceId := j.sourceId
        seqnum := j.seqnum
        streamTimestamp := j.streamTimestamp
        marker := j.marker
        payloadType := j.payloadType }
    fec := packet.fec.map fun part =>
      { part with
        encodingSymbolId := j.encodingSymbolId
        sourceBlockNumber := j.sourceBlockNumber
        sourceBlockLength := j.sourceBlockLength
        blockLength := j.blockLength } }

def pad (j : Job) (packet : Parts) : Except Fault (Parts × Bool) :=
  match j.paddingSize with
  | none => .ok (packet, true)
  | some paddingSize => j.chain.composer.pad packet paddingSize

def finish (j : Job) (packet : Parts) (window : Span) : Except Fault Outcome := do
  let mem ← Composer.store j.mem (payloadWindow packet) j.payload
  let (packet, padded) ← j.pad (j.setFields packet)
  if !padded then return .notPadded
  let (mem, composed) ← j.chain.composer.compose packet mem
  if !composed then return .notComposed
  return .composed packet mem window

def run (j : Job) : Except Fault Outcome := do
  match ← j.align with
  | none => return .notAligned
  | some buffer =>
    let (packet, prepared) ← j.prepare buffer
    match prepared with
    | none => return .notPrepared
    | some window => j.finish packet window

/-! ## Space -/

def skipped (j : Job) : Nat :=
  match j.alignment with
  | none => 0
  | some alignment => padAs j.chain.headerSize alignment

def capacity (j : Job) : Nat := j.buffer.capacity j.mem.length

def size (j : Job) : Nat := j.chain.headerSize + j.payload.length + j.chain.footerSize

def alignedBuffer (j : Job) : Span :=
  match j.alignment with
  | none => j.buffer
  | some _ => ⟨j.buffer.off + j.skipped, 0⟩

theorem alignPayload_eq {len : Nat} {buffer : Span} {headerSize alignment : Nat} :
    alignPayload len buffer headerSize alignment = .ok (if buffer.capacity len < padAs headerSize alignment then none
        else some ⟨buffer.off + padAs headerSize alignment, 0⟩) := by
  by_cases h : buffer.capacity len < padAs headerSize alignment
  · simp [alignPayload, h]
  · simp [alignPayload, h, reslice_eq (Nat.le_refl _) (Nat.le_of_not_lt h)]

theorem align_eq (j : Job) : j.align = .ok (if j.capacity < j.skipped then none else some j.alignedBuffer) := by
  cases ha : j.alignment with
  | none => simp [align, skipped, alignedBuffer, ha]
  | some a =>
    obtain ⟨hpos, hmod⟩ := j.aligned a ha
    cases hc : j.chain <;> simp [align, skipped, alignedBuffer, ha, hc, Chain.composer, Composer.align, Composer.isNull,
        alignPayload_eq, hmod, capacity, Chain.headerSize]

section
variable {len n : Nat} {packet : Parts} {buffer : Span}

/-- The RTP part of a prepared packet whose buffer begins at `o`. -/
def rtpAt (o n : Nat) : RtpParts where
  header := ⟨o, 12⟩
  payload := ⟨o + 12, n⟩

theorem prepare_rtp_eq (hrtp : packet.rtp = none) : Composer.prepare len (.rtp .null) packet buffer n =
      .ok (if buffer.capacity len < 12 + n then (packet, none)
        else ({ packet with rtp := some (rtpAt buffer.off n) }, some ⟨buffer.off, 12 + n⟩)) := by
  by_cases h12 : buffer.capacity len < 12
  · simp [Composer.prepare, h12, show buffer.capacity len < 12 + n by omega]
  by_cases hn : buffer.capacity len < 12 + n
  · simp [Composer.prepare, Composer.isNull, reslice_front, h12, hn, show buffer.capacity len - 12 < n by omega]
  · simp [Composer.prepare, Composer.isNull, reslice_front, h12, hn, hrtp, rtpAt,
      show ¬ buffer.capacity len - 12 < n by omega]

/-- The FEC part of a prepared source packet. -/
def sourceAt (id : PayloadIdFormat) (o n : Nat) : FecParts where
  fecScheme := id.fecScheme
  payloadId := some ⟨o + (12 + n), id.size⟩
  payload := ⟨o, 12 + n⟩

variable {id : PayloadIdFormat}

theorem prepare_source_eq : Composer.prepare len (Chain.source id).composer {} buffer n =
      .ok (if buffer.capacity len < 12 + n then ({}, none)
        else if buffer.capacity len < 12 + n + id.size then
          ({ rtp := some (rtpAt buffer.off n) }, none)
        else ({ rtp := some (rtpAt buffer.off n), fec := some (sourceAt id buffer.off n) },
          some ⟨buffer.off, id.size + (12 + n)⟩)) := by
  have hrtp : Composer.prepare len (.rtp .null) {} ⟨buffer.off, 0⟩ n = _ := prepare_rtp_eq rfl
  by_cases h12 : buffer.capacity len < 12 + n
  · simp [Chain.composer, Composer.prepare.eq_3, Composer.isNull, hrtp, h12]
  by_cases hfull : buffer.capacity len < 12 + n + id.size
  · simp [Chain.composer, Composer.prepare.eq_3, Composer.isNull, hrtp, h12, hfull,
      show buffer.capacity len - (12 + n) < id.size by omega]
  · simp [Chain.composer, Composer.prepare.eq_3, Composer.isNull, reslice_front, hrtp, h12, hfull, sourceAt,
      show ¬ buffer.capacity len - (12 + n) < id.size by omega,
      show ¬ buffer.capacity len < id.size + (12 + n) by omega]

def repairAt (id : PayloadIdFormat) (o n : Nat) : FecParts where
  fecScheme := id.fecScheme
  payloadId := some ⟨o, id.size⟩
  payload := ⟨o + id.size, n⟩

theorem prepare_repair_eq : Composer.prepare len (Chain.repair id).composer {} buffer n =
      if buffer.capacity len < id.size then .ok ({}, none)
      else if buffer.capacity len < id.size + n then .error (.panic "slice: out of bounds")
      else .ok ({ fec := some (repairAt id buffer.off n), repair := true }, some ⟨buffer.off, id.size + n⟩) := by
  by_cases hid : buffer.capacity len < id.size
  · simp [Chain.composer, Composer.prepare, hid]
  by_cases hn : buffer.capacity len < id.size + n
  · simp [Chain.composer, Composer.prepare, Composer.isNull, reslice_front, hid, hn,
      show buffer.capacity len - id.size < n by omega]
  · simp [Chain.composer, Composer.prepare, Composer.isNull, reslice_front, hid, hn, repairAt,
      show ¬ buffer.capacity len - id.size < n by omega]

end

/-! ## Headers -/

def mptOf (marker : Bool) (pt : UInt8) : UInt8 :=
  ((Rtp.Header.setMarker {} marker).mpt &&& ~~~((0x7f : UInt8) <<< 0)) ||| (pt <<< 0)

theorem mptOf_spec : ∀ (pt : Fin 128) (marker : Bool), ofNat pt.val &&& 0x7f = ofNat pt.val ∧
      (mptOf marker (ofNat pt.val) >>> 0) &&& 0x7f = ofNat pt.val ∧
      decide (mptOf marker (ofNat pt.val) &&& ((0x1 : UInt8) <<< 7) ≠ 0) = marker := by
  decide

def flagsOf (padded : Bool) : UInt8 := if padded then 0xa0 else 0x80

theorem flagsOf_spec : ∀ padded : Bool,
    (flagsOf padded >>> 6) &&& 0x3 = Rtp.V2 ∧ ((flagsOf padded >>> 0) &&& 0xf).toNat = 0 ∧
      decide (flagsOf padded &&& ((0x1 : UInt8) <<< 4) ≠ 0) = false ∧
      decide (flagsOf padded &&& ((0x1 : UInt8) <<< 5) ≠ 0) = padded := by
  decide

def composedHeader (part : RtpParts) (padded : Bool) : Rtp.Header where
  flags := flagsOf padded
  mpt := mptOf part.marker (UInt8.ofNat part.payloadType)
  seqnum := part.seqnum
  timestamp := part.streamTimestamp
  ssrc := part.sourceId

structure HeaderOf (part : RtpParts) (padded : Bool) (header : Rtp.Header) : Prop where
  version : header.version = Rtp.V2
  numCsrc : header.numCsrc = 0
  hasExtension : header.hasExtension = false
  hasPadding : header.hasPadding = padded
  ssrc : header.ssrc = part.sourceId
  seqnum : header.seqnum = part.seqnum
  timestamp : header.timestamp = part.streamTimestamp
  marker : header.marker = part.marker
  payloadType : header.payloadType.toNat = part.payloadType

theorem rtpHeader_spec {part : RtpParts} (hpt : part.payloadType < 128) (padded : Bool) :
    ∃ header, rtpHeader part padded = .ok header ∧ HeaderOf part padded header := by
  obtain ⟨hbound, htype, hmarker⟩ := mptOf_spec ⟨part.payloadType, hpt⟩ part.marker
  have hnat : (ofNat part.payloadType).toNat = part.payloadType := by
    rw [toNat_ofNat']; omega
  obtain ⟨hversion, hcsrc, hext, hpad⟩ := flagsOf_spec padded
  have hset : rtpHeader part padded = .ok (composedHeader part padded) := by
    simp only [rtpHeader, setVersion, show Rtp.V2 &&& 0x3 = Rtp.V2 by decide, ne_eq,
      not_true_eq_false, if_false, ok_bind, setPayloadType, hbound, pure_eq_ok]
    cases padded with
    | false => rfl
    | true =>
      have hflags : (((0 : UInt8) &&& ~~~((0x3 : UInt8) <<< 6) ||| Rtp.V2 <<< 6) &&& ~~~((0x1 : UInt8) <<< 5)) |||
          ((1 : UInt8) <<< 5) = flagsOf true := by decide
      simp only [setMarker, setPadding, if_pos, hflags]
      rfl
  exact ⟨_, hset, hversion, hcsrc, hext, hpad, rfl, rfl, rfl, hmarker, (congrArg toNat htype).trans hnat⟩

theorem store_eq (mem bytes : List UInt8) (w : Span) (hw : bytes.length ≤ w.size)
    (hm : w.off + bytes.length ≤ mem.length) :
    store mem w bytes = .ok (write mem w.off bytes) := if_pos ⟨hw, hm⟩

variable {bytes : List UInt8} {mem : List UInt8}

theorem bytes_write_self {w : Span} (hw : bytes.length = w.size)
    (hm : w.off + w.size ≤ mem.length) : w.bytes (write mem w.off bytes) = bytes := by
  have := read_write_self mem bytes (show w.off + bytes.length ≤ mem.length by omega)
  rwa [hw] at this

theorem bytes_write_of_disjoint {o : Nat} {w : Span}
    (hm : o + bytes.length ≤ mem.length) (hd : w.off + w.size ≤ o ∨ o + bytes.length ≤ w.off) :
    w.bytes (write mem o bytes) = w.bytes mem :=
  read_write_of_disjoint mem bytes hm hd

theorem length_paddingBytes {p : Nat} (h : 0 < p) : (paddingBytes p).length = p := by
  rw [paddingBytes, length_append, length_replicate, length_singleton]; omega

/-- What `rtp::Composer::compose` leaves in memory. -/
structure Written (part : RtpParts) (padding : Span) (mem mem' : List UInt8) : Prop where
  length : mem'.length = mem.length
  header : ∃ header, HeaderOf part (decide (0 < padding.size)) header ∧
    part.header.bytes mem' = Rtp.Header.codec.encode header
  padded : 0 < padding.size → padding.bytes mem' = Composer.paddingBytes padding.size
  others : ∀ w : Span, w.off + w.size ≤ part.header.off ∨ part.header.off + 12 ≤ w.off →
    w.off + w.size ≤ padding.off ∨ padding.off + padding.size ≤ w.off ∨ padding.size = 0 →
    w.bytes mem' = w.bytes mem

section
variable {packet : Parts} {part : RtpParts} {padding : Span} {mem : List UInt8}

theorem compose_rtp_eq (hpart : packet.rtp = some part) (hpt : part.payloadType < 128)
    (hpadding : part.padding.getD ⟨0, 0⟩ = padding) (hsize : part.header.size = 12)
    (hheader : part.header.off + 12 ≤ mem.length) (hend : padding.off + padding.size ≤ mem.length)
    (hapart : part.header.off + 12 ≤ padding.off ∨ padding.size = 0) :
    ∃ mem', compose (.rtp .null) packet mem = .ok (mem', decide (padding.size ≤ 255)) ∧
      (padding.size ≤ 255 → Written part padding mem mem') := by
  obtain ⟨header, hset, hspec⟩ := rtpHeader_spec hpt (decide (0 < padding.size))
  have hlen : (codec.encode header).length = 12 := codec.encode_length header
  have hstore := store_eq mem (codec.encode header) part.header (by omega) (by omega)
  have hwrite : part.header.off + (codec.encode header).length ≤ mem.length := by omega
  have hlen1 := length_write mem _ hwrite
  have hbytes := bytes_write_self (hlen.trans hsize.symm)
    (show part.header.off + part.header.size ≤ mem.length by omega)
  have hcompose : compose (.rtp .null) packet mem = do
      let mem := write mem part.header.off (codec.encode header)
      if padding.size > 255 then return (mem, false)
      let mem ← if 0 < padding.size then
          store mem padding (paddingBytes padding.size)
        else pure mem
      return (mem, true) := by
    simp only [compose, hpart, hsize, codec_width, ne_eq, not_true_eq_false, if_false,
      hpadding, hset, ok_bind, hstore, isNull, if_pos, pure_eq_ok]
  rw [hcompose]
  by_cases hzero : padding.size = 0
  · refine ⟨write mem part.header.off (codec.encode header), ?_, fun _ =>
      ⟨hlen1, ⟨header, hspec, hbytes⟩, by omega, ?_⟩⟩
    · simp [hzero]
    · intro w hw _
      exact bytes_write_of_disjoint hwrite (by omega)
  by_cases hlarge : padding.size > 255
  · refine ⟨write mem part.header.off (codec.encode header), ?_, by omega⟩
    simp [hlarge, Nat.not_le.mpr hlarge]
  have hpos : 0 < padding.size := by omega
  have hplen := length_paddingBytes hpos
  have hstore2 := store_eq (write mem part.header.off (codec.encode header))
    (paddingBytes padding.size) padding (by omega) (by omega)
  have hwrite2 : padding.off + (paddingBytes padding.size).length ≤
      (write mem part.header.off (codec.encode header)).length := by omega
  refine ⟨write (write mem part.header.off (codec.encode header))
      padding.off (paddingBytes padding.size), ?_, fun _ => ⟨?_, ⟨header, hspec, ?_⟩, ?_, ?_⟩⟩
  · simp [hlarge, hpos, hstore2, Nat.le_of_not_lt hlarge]
  · rw [length_write _ _ hwrite2, hlen1]
  · rw [bytes_write_of_disjoint hwrite2 (by omega), hbytes]
  · intro _
    exact bytes_write_self hplen (by omega)
  · intro w hw hp
    rw [bytes_write_of_disjoint hwrite2 (by omega), bytes_write_of_disjoint hwrite (by omega)]

end

/-! ## What the parser finds -/

/-- The padding of a packet with `p` bytes of it. -/
def paddingOf (p : Nat) : List UInt8 := if p = 0 then [] else Composer.paddingBytes p

theorem length_paddingOf (p : Nat) : (paddingOf p).length = p := by
  rw [paddingOf]
  split
  case isTrue h => rw [h, length_nil]
  case isFalse h => exact length_paddingBytes (by omega)

section
variable {part : RtpParts} {p : Nat} {header : Rtp.Header} {payload : List UInt8} {s : Slice}

theorem isPacket_composed (hh : HeaderOf part (decide (0 < p)) header) (hp : p ≤ 255) :
    Rtp.IsPacket (codec.encode header ++ (payload ++ paddingOf p))
      (codec.encode header) [] [] payload (paddingOf p) where
  split := by simp
  fixed_length := codec.encode_length header
  version := by rw [Codec.decode_encode_self]; exact hh.version
  csrcs_length := by rw [Codec.decode_encode_self, hh.numCsrc]; rfl
  extended := by rw [Codec.decode_encode_self, hh.hasExtension]; rfl
  padded := by
    rw [Codec.decode_encode_self, hh.hasPadding]
    by_cases hpos : 0 < p
    · rw [if_pos (decide_eq_true hpos), length_paddingOf, paddingOf, if_neg (by omega)]
      exact ⟨_, _, rfl, by rw [toNat_ofNat']; omega⟩
    · rw [if_neg (by simpa using hpos), paddingOf, if_pos (by omega)]

structure Found (part : RtpParts) (p : Nat) (payload : List UInt8) (found : RtpParts) (mem : List UInt8) :
    Prop where
  sourceId : found.sourceId = part.sourceId
  seqnum : found.seqnum = part.seqnum
  streamTimestamp : found.streamTimestamp = part.streamTimestamp
  marker : found.marker = part.marker
  payloadType : found.payloadType = part.payloadType
  payload : found.payload.bytes mem = payload
  padding : (found.padding.getD ⟨0, 0⟩).bytes mem = paddingOf p

theorem found_rtpOf (hh : HeaderOf part (decide (0 < p)) header) (hp : p ≤ 255)
    (hs : s.bytes = codec.encode header ++ (payload ++ paddingOf p)) :
    Rtp.Sized s ∧ Found part p payload (Rtp.rtpOf s) s.buf := by
  have hpacket : Rtp.IsPacket s.bytes (codec.encode header) [] [] payload (paddingOf p) := by
    rw [hs]; exact isPacket_composed hh hp
  have hheader : Rtp.headerOf s = header := by
    rw [hpacket.headerOf_eq, Codec.decode_encode_self]
  have hlen : Rtp.headerLen s = 12 := by
    rw [Rtp.headerLen, hpacket.headerSize_eq, hpacket.extensionLen_eq]; rfl
  have hpad : Rtp.paddingLen s = p := by rw [hpacket.paddingLen_eq, length_paddingOf]
  have hsize : s.size = 12 + payload.length + p := by
    rw [hpacket.size_eq, length_paddingOf]; rfl
  have hread : ∀ o m, o + m ≤ s.size → Memory.read s.buf (s.off + o) m = (s.bytes.drop o).take m := by
    intro o m hm
    rw [Slice.bytes, drop_take, drop_drop, take_take, Nat.min_eq_left (by omega), Memory.read]
  have hdrop : s.bytes.drop 12 = payload ++ paddingOf p := by
    rw [hs]; exact drop_left' (codec.encode_length header)
  refine ⟨hpacket.sized, ?_, ?_, ?_, ?_, ?_, ?_, ?_⟩
  · rw [Rtp.rtpOf, hheader]; exact hh.ssrc
  · rw [Rtp.rtpOf, hheader]; exact hh.seqnum
  · rw [Rtp.rtpOf, hheader]; exact hh.timestamp
  · rw [Rtp.rtpOf, hheader]; exact hh.marker
  · rw [Rtp.rtpOf, hheader]; exact hh.payloadType
  · simp only [Rtp.rtpOf, bytes, hlen, hpad]
    rw [hread _ _ (by omega), hdrop, take_append_of_le_length (by omega), take_of_length_le (by omega)]
  · simp only [Rtp.rtpOf, hpad]
    split
    case isTrue hzero => simp [bytes, Memory.read, paddingOf, hzero]
    case isFalse hpos =>
      change Memory.read s.buf (s.off + (s.size - p)) p = paddingOf p
      rw [hread _ _ (by omega), show s.size - p = 12 + payload.length by omega, ← drop_drop,
        hdrop, drop_left, take_of_length_le (by rw [length_paddingOf])]

end

/-! ## One job -/

section
variable (j : Job)

def paddingLen : Nat := j.paddingSize.getD 0

def Padded : Prop := ∀ p ∈ j.paddingSize, j.chain.isRepair = false ∧ p ≤ j.payload.length ∧ p ≤ 255

/-- The RTP part before it is composed, for a packet that begins at `o`. -/
def part (o : Nat) : RtpParts where
  sourceId := j.sourceId
  seqnum := j.seqnum
  streamTimestamp := j.streamTimestamp
  marker := j.marker
  payloadType := j.payloadType
  header := ⟨o, 12⟩
  payload := ⟨o + 12, j.payload.length - j.paddingLen⟩
  padding := j.paddingSize.map fun p => ⟨o + 12 + (j.payload.length - p), p⟩

variable {j}

variable (j) in
def paddedParts (packet : Parts) (o : Nat) : Parts :=
  { j.setFields packet with rtp := some (j.part o) }

variable {o : Nat} {packet : Parts} {mem mem' bytes : List UInt8} {window : Span}
  {id : PayloadIdFormat} {isAudio : UInt8 → Bool}

theorem pad_rtp_eq (hrtp : packet.rtp = some (rtpAt o j.payload.length))
    (hchain : ∀ packet p, j.chain.composer.pad packet p = Composer.pad (.rtp .null) packet p) :
    j.pad (j.setFields packet) = if j.paddingLen ≤ j.payload.length then
        .ok (j.paddedParts packet o, true)
      else .ok (j.setFields packet, false) := by
  cases hp : j.paddingSize with
  | none => simp [pad, hp, paddingLen, paddedParts, setFields, hrtp, part, rtpAt]
  | some p =>
    have hlen : j.paddingLen = p := by rw [paddingLen, hp]; rfl
    by_cases hle : p ≤ j.payload.length
    · have hcut : (⟨o + 12, j.payload.length⟩ : Span).subslice (j.payload.length - p) j.payload.length =
          .ok ⟨o + 12 + (j.payload.length - p), p⟩ := by
        rw [subslice_eq (Nat.sub_le _ _) (Nat.le_refl _), Nat.sub_sub_self hle]
      have hkeep : (⟨o + 12, j.payload.length⟩ : Span).subslice 0 (j.payload.length - p) =
          .ok ⟨o + 12, j.payload.length - p⟩ := subslice_eq (Nat.zero_le _) (Nat.sub_le _ _)
      simp [pad, hp, hchain, Composer.pad, Composer.isNull, setFields, hrtp, rtpAt, hlen, hle,
        Nat.not_lt.mpr hle, hcut, hkeep, part, paddedParts]
    · simp [pad, hp, hchain, Composer.pad, Composer.isNull, setFields, hrtp, rtpAt, hlen, hle, Nat.lt_of_not_le hle]

/-- The RTP packet that `compose` leaves in memory, if the payload was there before. -/
theorem rtp_composed (hpart : packet.rtp = some (j.part o))
    (hpayload : (⟨o + 12, j.payload.length⟩ : Span).bytes mem = j.payload)
    (hfits : o + 12 + j.payload.length ≤ mem.length) (hle : j.paddingLen ≤ j.payload.length) :
    ∃ mem', compose (.rtp .null) packet mem = .ok (mem', decide (j.paddingLen ≤ 255)) ∧
      (j.paddingLen ≤ 255 → mem'.length = mem.length ∧
        (∃ header, HeaderOf (j.part o) (decide (0 < j.paddingLen)) header ∧
          (⟨o, 12 + j.payload.length⟩ : Span).bytes mem' = codec.encode header ++
              (j.payload.take (j.payload.length - j.paddingLen) ++ paddingOf j.paddingLen)) ∧
        ∀ w : Span, o + 12 + j.payload.length ≤ w.off → w.bytes mem' = w.bytes mem) := by
  obtain ⟨padding, hpadding, hsize, hoff⟩ : ∃ padding, (j.part o).padding.getD ⟨0, 0⟩ = padding ∧
      padding.size = j.paddingLen ∧
      (padding.off = o + 12 + (j.payload.length - j.paddingLen) ∨
        padding.off = 0 ∧ j.paddingLen = 0) := by
    cases hp : j.paddingSize with
    | none => exact ⟨_, rfl, by simp [part, paddingLen, hp], Or.inr (by simp [part, paddingLen, hp])⟩
    | some p => exact ⟨_, rfl, by simp [part, paddingLen, hp], Or.inl (by simp [part, paddingLen, hp])⟩
  have hapart : (j.part o).header.off + 12 ≤ padding.off ∨ padding.size = 0 := by
    simp only [part]; omega
  obtain ⟨mem', hcompose, hwritten⟩ := compose_rtp_eq hpart j.payloadType_lt hpadding rfl
    (show o + 12 ≤ mem.length by omega) (by omega) hapart
  rw [hsize] at hcompose
  refine ⟨mem', hcompose, fun hp => ?_⟩
  have h := hwritten (by omega)
  obtain ⟨header, hh, hhb⟩ := h.header
  rw [hsize] at hh
  refine ⟨h.length, ⟨header, hh, ?_⟩, ?_⟩
  · -- header, payload and padding are three windows, each with its own contents
    have hkept : (⟨o + 12, j.payload.length - j.paddingLen⟩ : Span).bytes mem' =
        j.payload.take (j.payload.length - j.paddingLen) := by
      rw [h.others _ (Or.inr (Nat.le_refl _)) (by simp only; omega)]
      exact (Memory.take_read (Nat.sub_le _ _)).symm.trans (congrArg _ hpayload)
    have hcut : Memory.read mem' (o + 12 + (j.payload.length - j.paddingLen)) j.paddingLen =
        paddingOf j.paddingLen := by
      by_cases hzero : j.paddingLen = 0
      · rw [hzero, paddingOf, if_pos rfl, Memory.read, take_zero]
      · have hpad := h.padded (by omega)
        rw [bytes, hsize, show padding.off = o + 12 + (j.payload.length - j.paddingLen) by omega] at hpad
        rw [hpad, paddingOf, if_neg hzero]
    have hread : Memory.read mem' o (12 + j.payload.length) = _ := Memory.read_append mem' o 12 _
    rw [bytes, hread]
    refine congrArg₂ (· ++ ·) hhb ?_
    rw [← hkept, ← hcut]
    have hsplit := Memory.read_append mem' (o + 12) (j.payload.length - j.paddingLen) j.paddingLen
    rwa [Nat.sub_add_cancel hle] at hsplit
  · intro w hw
    exact h.others w (Or.inr (by simp only [part]; omega)) (by omega)

variable (j) in
def ending (packet : Parts) (mem : List UInt8) (window : Span) : Outcome :=
  if j.paddingLen ≤ j.payload.length then
    if j.paddingLen ≤ 255 then .composed packet mem window else .notComposed
  else .notPadded

theorem store_payload (hfits : o + j.payload.length ≤ j.mem.length) :
    store j.mem ⟨o, j.payload.length⟩ j.payload = .ok (write j.mem o j.payload) ∧
      (write j.mem o j.payload).length = j.mem.length ∧
      (⟨o, j.payload.length⟩ : Span).bytes (write j.mem o j.payload) = j.payload :=
  ⟨store_eq _ _ ⟨o, _⟩ (Nat.le_refl _) hfits, length_write _ _ hfits, bytes_write_self (w := ⟨o, _⟩) rfl hfits⟩

variable (j) in
/-- The bytes of the packet from `o` on, up to the footer. -/
def RtpIn (o : Nat) (mem : List UInt8) : Prop := ∃ header, HeaderOf (j.part o) (decide (0 < j.paddingLen)) header ∧
    (⟨o, 12 + j.payload.length⟩ : Span).bytes mem = Rtp.Header.codec.encode header ++
        (j.payload.take (j.payload.length - j.paddingLen) ++ paddingOf j.paddingLen)

theorem finish_eq (hrtp : packet.rtp = some (rtpAt o j.payload.length))
    (hstore : Composer.store j.mem ⟨o + 12, j.payload.length⟩ j.payload = .ok mem)
    (hchain : ∀ packet p, j.chain.composer.pad packet p = Composer.pad (.rtp .null) packet p)
    (hcompose : j.paddingLen ≤ j.payload.length → j.chain.composer.compose (j.paddedParts packet o) mem =
        .ok (mem', decide (j.paddingLen ≤ 255))) :
    j.finish packet window = .ok (j.ending (j.paddedParts packet o) mem' window) := by
  have hwindow : payloadWindow packet = ⟨o + 12, j.payload.length⟩ := by
    rw [payloadWindow, hrtp]; rfl
  have hpad := pad_rtp_eq hrtp hchain
  by_cases hle : j.paddingLen ≤ j.payload.length
  · rw [if_pos hle] at hpad
    by_cases hp : j.paddingLen ≤ 255 <;> simp [finish, hwindow, hstore, hpad, hcompose hle, ending, hle, hp]
  · rw [if_neg hle] at hpad
    simp [finish, hwindow, hstore, hpad, ending, hle]

theorem finish_rtp (window : Span) (hc : j.chain = .rtp) (hfits : o + 12 + j.payload.length ≤ j.mem.length) :
    ∃ packet mem', j.finish { rtp := some (rtpAt o j.payload.length) } window = .ok (j.ending packet mem' window) ∧
      (j.paddingLen ≤ j.payload.length → j.paddingLen ≤ 255 → mem'.length = j.mem.length ∧ j.RtpIn o mem') := by
  obtain ⟨hstore, hlen, hpayload⟩ := store_payload hfits
  by_cases hle : j.paddingLen ≤ j.payload.length
  · obtain ⟨mem', hcompose, hmem⟩ := rtp_composed
      (show (j.paddedParts { rtp := some (rtpAt o j.payload.length) } o).rtp = some (j.part o) from rfl)
      hpayload (by omega) hle
    refine ⟨_, mem', finish_eq rfl hstore (by intro packet p; rw [hc]; rfl) ?_,
      fun _ hp => ⟨(hmem hp).1.trans hlen, (hmem hp).2.1⟩⟩
    intro _
    rw [hc]
    exact hcompose
  · exact ⟨_, [], finish_eq rfl hstore (by intro packet p; rw [hc]; rfl) (fun h => absurd h hle), fun h => absurd h hle⟩

theorem encode_job (hid : j.chain.payloadId = some id) :
    ∃ bytes, id.encode j.encodingSymbolId j.sourceBlockNumber.toNat j.sourceBlockLength j.blockLength = .ok bytes ∧
      bytes.length = id.size ∧ id.esi bytes = j.encodingSymbolId ∧
      id.sbn bytes = j.sourceBlockNumber.toNat ∧ id.k bytes = j.sourceBlockLength ∧
      id.n bytes = id.carried j.blockLength :=
  id.encode_spec (j.encodingSymbolId_lt id hid) j.sourceBlockNumber.toNat_lt j.sourceBlockLength_lt j.blockLength_lt

variable (j) in
def fecPart (part : FecParts) : FecParts :=
  { part with
    encodingSymbolId := j.encodingSymbolId
    sourceBlockNumber := j.sourceBlockNumber
    sourceBlockLength := j.sourceBlockLength
    blockLength := j.blockLength }

variable {pos : PayloadPos} {buffer : Span}

theorem compose_fec_eq {repair : Bool} {inner : Composer} {part : FecParts} {w : Span}
    (hid : j.chain.payloadId = some id) (hfec : packet.fec = some (j.fecPart part))
    (hpid : part.payloadId = some w) (hw : w.size = id.size) (hfits : w.off + w.size ≤ mem.length)
    (hbytes : id.encode j.encodingSymbolId j.sourceBlockNumber.toNat j.sourceBlockLength j.blockLength =
      .ok bytes) (hlen : bytes.length = id.size) :
    compose (.fec id repair pos inner) packet mem = if inner.isNull then .ok (write mem w.off bytes, true)
      else compose inner packet (write mem w.off bytes) := by
  have hesi : j.encodingSymbolId >>> 16 = 0 := by
    have := j.encodingSymbolId_lt id hid
    have := id.esiBound_le
    rw [Nat.shiftRight_eq_div_pow]; omega
  have hk : j.sourceBlockLength >>> 16 = 0 := by
    have := j.sourceBlockLength_lt
    rw [Nat.shiftRight_eq_div_pow]; omega
  have hn : j.blockLength >>> 16 = 0 := by
    have := j.blockLength_lt
    rw [Nat.shiftRight_eq_div_pow]; omega
  have hstore := store_eq mem bytes w (by omega) (by omega)
  simp [compose, hfec, fecPart, hpid, hw, hesi, hk, hn, hbytes, hstore]

theorem finish_source (window : Span) (hc : j.chain = .source id)
    (hfits : o + (12 + j.payload.length) + id.size ≤ j.mem.length) :
    ∃ packet mem' bytes, j.finish { rtp := some (rtpAt o j.payload.length)
                                    fec := some (sourceAt id o j.payload.length) } window =
        .ok (j.ending packet mem' window) ∧
      id.encode j.encodingSymbolId j.sourceBlockNumber.toNat j.sourceBlockLength j.blockLength = .ok bytes ∧
      (j.paddingLen ≤ j.payload.length → j.paddingLen ≤ 255 →
        mem'.length = j.mem.length ∧ j.RtpIn o mem' ∧
          (⟨o + (12 + j.payload.length), id.size⟩ : Span).bytes mem' = bytes) := by
  have hid : j.chain.payloadId = some id := by rw [hc]; rfl
  obtain ⟨hstore, hlen, hpayload⟩ := store_payload (j := j) (o := o + 12) (by omega)
  obtain ⟨bytes, hbytes, hsize, -⟩ := encode_job hid
  have hwrite : o + (12 + j.payload.length) + bytes.length ≤
      (write j.mem (o + 12) j.payload).length := by omega
  have hkeep : (⟨o + 12, j.payload.length⟩ : Span).bytes (write
      (write j.mem (o + 12) j.payload) (o + (12 + j.payload.length)) bytes) = j.payload := by
    rw [bytes_write_of_disjoint hwrite (by simp only; omega), hpayload]
  have hlen2 := length_write _ bytes hwrite
  by_cases hle : j.paddingLen ≤ j.payload.length
  · obtain ⟨mem', hcompose, hmem⟩ := rtp_composed
      (show (j.paddedParts { rtp := some (rtpAt o j.payload.length)
                             fec := some (sourceAt id o j.payload.length) } o).rtp = some (j.part o) from rfl)
      hkeep (by omega) hle
    refine ⟨_, mem', bytes, finish_eq rfl hstore (by intro packet p; rw [hc]; rfl) ?_, hbytes, ?_⟩
    · intro _
      rw [hc]
      have hfec : (j.paddedParts { rtp := some (rtpAt o j.payload.length)
                                   fec := some (sourceAt id o j.payload.length) } o).fec =
          some (j.fecPart (sourceAt id o j.payload.length)) := rfl
      exact (compose_fec_eq hid hfec rfl rfl (by simp only [hlen]; omega) hbytes hsize).trans hcompose
    · intro _ hp
      obtain ⟨h1, h2, h3⟩ := hmem hp
      refine ⟨by omega, h2, ?_⟩
      rw [h3 _ (by simp only; omega)]
      exact bytes_write_self (w := ⟨o + (12 + j.payload.length), id.size⟩) hsize (by simp only; omega)
  · exact ⟨_, [], bytes, finish_eq rfl hstore (by intro packet p; rw [hc]; rfl) (fun h => absurd h hle), hbytes,
      fun h => absurd h hle⟩

theorem finish_repair (window : Span) (hc : j.chain = .repair id)
    (hfits : o + id.size + j.payload.length ≤ j.mem.length) :
    ∃ packet mem' bytes, j.finish { fec := some (repairAt id o j.payload.length), repair := true } window =
        .ok (if j.paddingSize = none then .composed packet mem' window else .notPadded) ∧
      id.encode j.encodingSymbolId j.sourceBlockNumber.toNat j.sourceBlockLength j.blockLength = .ok bytes ∧
      mem'.length = j.mem.length ∧ (⟨o, id.size⟩ : Span).bytes mem' = bytes ∧
        (⟨o + id.size, j.payload.length⟩ : Span).bytes mem' = j.payload := by
  have hid : j.chain.payloadId = some id := by rw [hc]; rfl
  obtain ⟨hstore, hlen, hpayload⟩ := store_payload (j := j) (o := o + id.size) hfits
  obtain ⟨bytes, hbytes, hsize, -⟩ := encode_job hid
  have hwrite : o + bytes.length ≤ (write j.mem (o + id.size) j.payload).length := by omega
  have hwindow : payloadWindow { fec := some (repairAt id o j.payload.length), repair := true } =
      ⟨o + id.size, j.payload.length⟩ := rfl
  have hfec : (j.setFields { fec := some (repairAt id o j.payload.length), repair := true }).fec =
      some (j.fecPart (repairAt id o j.payload.length)) := rfl
  have hcompose : Composer.compose (.fec id true .header .null)
      (j.setFields { fec := some (repairAt id o j.payload.length), repair := true })
      (write j.mem (o + id.size) j.payload) = .ok (write (write j.mem (o + id.size) j.payload) o bytes, true) :=
    compose_fec_eq hid hfec rfl rfl (by simp only [hlen]; omega) hbytes hsize
  refine ⟨j.setFields { fec := some (repairAt id o j.payload.length), repair := true },
    write (write j.mem (o + id.size) j.payload) o bytes, bytes, ?_, hbytes,
    (length_write _ _ hwrite).trans hlen,
    bytes_write_self (w := ⟨o, id.size⟩) hsize (by simp only; omega), ?_⟩
  · cases hp : j.paddingSize with
    | none => rw [finish, hwindow, hstore]; simp [pad, hp, hc, Chain.composer, hcompose]
    | some p =>
      rw [finish, hwindow, hstore]
      simp [pad, hp, hc, Chain.composer, Composer.pad, Composer.isNull]
  · rw [bytes_write_of_disjoint hwrite (by simp only; omega), hpayload]

/-! ## The same packet -/

variable (j) in
/-- What is found in a composed packet is what the job said, with `blockLength` for the block length. -/
structure Parsed (blockLength : Nat) (packet : Parts) (mem : List UInt8) : Prop where
  rtp : j.chain.isRepair = false → ∃ found, packet.rtp = some found ∧
    Found (j.part 0) j.paddingLen (j.payload.take (j.payload.length - j.paddingLen)) found mem
  fec : ∀ id, j.chain.payloadId = some id → ∃ found, packet.fec = some found ∧
    found.fecScheme = id.fecScheme ∧ found.encodingSymbolId = j.encodingSymbolId ∧
    found.sourceBlockNumber = j.sourceBlockNumber ∧ found.sourceBlockLength = j.sourceBlockLength ∧
    found.blockLength = blockLength ∧
    (j.chain.isRepair = true → found.payload.bytes mem = j.payload)

variable (j) in
def carried : Nat :=
  match j.chain.payloadId with
  | none => j.blockLength
  | some id => id.carried j.blockLength

variable (j) in
def Fits : Prop := j.skipped + j.size ≤ j.capacity

theorem parse_rtpIn (isAudio : UInt8 → Bool)
    (hfits : o + (12 + j.payload.length) ≤ mem.length) (hin : j.RtpIn o mem) (hp : j.paddingLen ≤ 255)
    (hrtp : packet.rtp = none) (haudio : packet.audio = false) :
    ∃ found audio, Rtp.parse isAudio none packet ⟨mem, o, 12 + j.payload.length, hfits⟩ =
        .ok ({ packet with rtp := some found, audio }, true) ∧
      Found (j.part 0) j.paddingLen (j.payload.take (j.payload.length - j.paddingLen)) found mem := by
  obtain ⟨header, hh, hbytes⟩ := hin
  obtain ⟨hsized, hfound⟩ := found_rtpOf (s := ⟨mem, o, 12 + j.payload.length, hfits⟩) hh hp hbytes
  have hparse : Rtp.parse isAudio none packet ⟨mem, o, 12 + j.payload.length, hfits⟩ =
      .ok (Rtp.filled isAudio packet ⟨mem, o, 12 + j.payload.length, hfits⟩, true) := by
    rw [Rtp.parse_eq hrtp haudio, dif_pos hsized]; rfl
  exact ⟨_, _, hparse, hfound.1, hfound.2, hfound.3, hfound.4, hfound.5, hfound.6, hfound.7⟩

theorem fecOf_eq {s : Slice} (hid : j.chain.payloadId = some id)
    (hbytes : id.encode j.encodingSymbolId j.sourceBlockNumber.toNat j.sourceBlockLength j.blockLength = .ok bytes)
    (hread : (⟨s.off + Fec.idAt pos id.size s.size, id.size⟩ : Span).bytes s.buf = bytes) :
    Fec.fecOf id.toPayloadId pos s =
      { fecScheme := id.fecScheme
        encodingSymbolId := j.encodingSymbolId
        sourceBlockNumber := j.sourceBlockNumber
        sourceBlockLength := j.sourceBlockLength
        blockLength := j.carried
        payload := of (Fec.restOf pos id.size s) } := by
  obtain ⟨bytes', hbytes', -, hesi, hsbn, hk, hn⟩ := encode_job hid
  rw [hbytes] at hbytes'
  cases hbytes'
  have htake : (s.buf.drop (s.off + Fec.idAt pos id.size s.size)).take id.size = bytes := hread
  have hcarried : j.carried = id.carried j.blockLength := by rw [carried, hid]
  simp only [Fec.fecOf, htake, hesi, hsbn, hk, hn, hcarried, UInt16.ofNat_toNat]

theorem alignedBuffer_off : j.alignedBuffer.off = j.buffer.off + j.skipped := by
  cases ha : j.alignment with
  | none | some a => simp [alignedBuffer, skipped, ha]

theorem alignedBuffer_capacity : j.alignedBuffer.capacity j.mem.length = j.capacity - j.skipped := by
  rw [Span.capacity, alignedBuffer_off, capacity, Span.capacity]; omega

theorem run_eq (h : j.Fits) : j.run = (do
      let (packet, prepared) ← j.prepare j.alignedBuffer
      match prepared with
      | none => return .notPrepared
      | some window => j.finish packet window) := by
  have : ¬ j.capacity < j.skipped := by have := h; unfold Fits at this; omega
  rw [run, align_eq, if_neg this]
  rfl

variable (j) in
/-- A composed packet is parsed, and everything in it is as it was set but for the block length. -/
structure RoundTrip (isAudio : UInt8 → Bool) (packet : Parts) (mem : List UInt8) (window : Span) : Prop where
  run : j.run = .ok (.composed packet mem window)
  parses : ∃ (h : window.off + window.size ≤ mem.length) (packet' : Parts),
    j.chain.parser isAudio {} ⟨mem, window.off, window.size, h⟩ = .ok (packet', true) ∧
      j.Parsed j.carried packet' mem

theorem Padded.le (hp : j.Padded) : j.paddingLen ≤ j.payload.length ∧ j.paddingLen ≤ 255 := by
  unfold paddingLen
  cases hs : j.paddingSize with
  | none => simp
  | some p => exact (hp p hs).2

theorem Padded.ending (hp : j.Padded) (packet : Parts) (mem : List UInt8) (window : Span) :
    j.ending packet mem window = .composed packet mem window := by
  rw [Job.ending, if_pos hp.le.1, if_pos hp.le.2]

theorem parse_sourceIn (hc : j.chain = .source id) (hfits : o + (12 + j.payload.length + id.size) ≤ mem.length)
    (hin : j.RtpIn o mem) (hp : j.paddingLen ≤ 255)
    (hbytes : id.encode j.encodingSymbolId j.sourceBlockNumber.toNat j.sourceBlockLength j.blockLength =
      .ok bytes) (hfooter : (⟨o + (12 + j.payload.length), id.size⟩ : Span).bytes mem = bytes) :
    ∃ packet', (Chain.source id).parser isAudio {}
        ⟨mem, o, 12 + j.payload.length + id.size, hfits⟩ = .ok (packet', true) ∧
      j.Parsed j.carried packet' mem := by
  have hid : j.chain.payloadId = some id := by rw [hc]; rfl
  obtain ⟨s, hs⟩ : ∃ s : Slice, s = ⟨mem, o, 12 + j.payload.length + id.size, hfits⟩ := ⟨_, rfl⟩
  have hrest : Fec.restOf .footer id.size s = ⟨mem, o, 12 + j.payload.length, by omega⟩ := by
    simp only [hs, Fec.restOf, Nat.add_sub_cancel]
  have hread : (⟨s.off + Fec.idAt .footer id.size s.size, id.size⟩ : Span).bytes s.buf = bytes := by
    simp only [hs, Fec.idAt, Nat.add_sub_cancel]; exact hfooter
  have hfec := fecOf_eq hid hbytes hread
  obtain ⟨found, audio, hparse, hfound⟩ := parse_rtpIn isAudio
    (show o + (12 + j.payload.length) ≤ mem.length by omega) hin hp
    (show ({ fec := some (Fec.fecOf id.toPayloadId .footer s) } : Parts).rtp = none from rfl) rfl
  have hall : (Chain.source id).parser isAudio {} s =
      .ok ({ rtp := some found, fec := some (Fec.fecOf id.toPayloadId .footer s), audio }, true) := by
    refine Eq.trans (Fec.parse_eq rfl rfl) ?_
    rw [if_pos (by simp only [hs]; exact Nat.le_add_left _ _), hrest]
    exact hparse
  rw [← hs]
  refine ⟨_, hall, fun _ => ⟨found, rfl, hfound⟩, ?_⟩
  intro id' hid'
  rw [hid] at hid'
  cases hid'
  refine ⟨_, rfl, ?_⟩
  rw [hfec]
  exact ⟨rfl, rfl, rfl, rfl, rfl, by rw [hc]; intro hr; cases hr⟩

theorem parse_repairIn (hc : j.chain = .repair id) (hfits : o + (id.size + j.payload.length) ≤ mem.length)
    (hbytes : id.encode j.encodingSymbolId j.sourceBlockNumber.toNat j.sourceBlockLength j.blockLength =
      .ok bytes) (hheader : (⟨o, id.size⟩ : Span).bytes mem = bytes)
    (hpayload : (⟨o + id.size, j.payload.length⟩ : Span).bytes mem = j.payload) :
    ∃ packet', (Chain.repair id).parser isAudio {} ⟨mem, o, id.size + j.payload.length, hfits⟩ =
        .ok (packet', true) ∧ j.Parsed j.carried packet' mem := by
  have hid : j.chain.payloadId = some id := by rw [hc]; rfl
  obtain ⟨s, hs⟩ : ∃ s : Slice, s = ⟨mem, o, id.size + j.payload.length, hfits⟩ := ⟨_, rfl⟩
  have hrest : Fec.restOf .header id.size s = ⟨mem, o + id.size, j.payload.length, by omega⟩ := by
    simp only [hs, Fec.restOf, Nat.add_sub_cancel_left, Nat.min_eq_left (Nat.le_add_right _ _)]
  have hread : (⟨s.off + Fec.idAt .header id.size s.size, id.size⟩ : Span).bytes s.buf = bytes := by
    simp only [hs, Fec.idAt, Nat.add_zero]; exact hheader
  have hfec := fecOf_eq hid hbytes hread
  have hall : (Chain.repair id).parser isAudio {} s =
      .ok ({ fec := some (Fec.fecOf id.toPayloadId .header s), repair := true }, true) := by
    refine Eq.trans (Fec.parse_eq rfl rfl) ?_
    rw [if_pos (by simp only [hs]; exact Nat.le_add_right _ _)]
    rfl
  rw [← hs]
  refine ⟨_, hall, fun hr => ?_, ?_⟩
  · rw [hc] at hr
    cases hr
  intro id' hid'
  rw [hid] at hid'
  cases hid'
  refine ⟨_, rfl, ?_⟩
  rw [hfec]
  refine ⟨rfl, rfl, rfl, rfl, rfl, fun _ => ?_⟩
  rw [hrest]
  exact hpayload

variable (j) in
/-- The packet as it is in memory from `o` on. -/
def Stored (o : Nat) (mem : List UInt8) : Prop := (j.chain.isRepair = false → j.RtpIn o mem) ∧
  ∀ id, j.chain.payloadId = some id → ∃ bytes,
    id.encode j.encodingSymbolId j.sourceBlockNumber.toNat j.sourceBlockLength j.blockLength = .ok bytes ∧
    (j.chain = .source id → (⟨o + (12 + j.payload.length), id.size⟩ : Span).bytes mem = bytes) ∧
    (j.chain = .repair id → (⟨o, id.size⟩ : Span).bytes mem = bytes ∧
      (⟨o + id.size, j.payload.length⟩ : Span).bytes mem = j.payload)

variable (j) in
def preparedParts (o : Nat) : Parts :=
  match j.chain with
  | .rtp => { rtp := some (rtpAt o j.payload.length) }
  | .source id => { rtp := some (rtpAt o j.payload.length), fec := some (sourceAt id o j.payload.length) }
  | .repair id => { fec := some (repairAt id o j.payload.length), repair := true }

theorem prepare_of_le (h : j.size ≤ buffer.capacity j.mem.length) :
    j.prepare buffer = .ok (j.preparedParts buffer.off, some ⟨buffer.off, j.size⟩) := by
  rw [prepare, preparedParts, size] at *
  cases hc : j.chain with
  | rtp =>
    simp only [hc, Chain.headerSize, Chain.footerSize, Nat.add_zero] at h ⊢
    exact (prepare_rtp_eq rfl).trans (congrArg _ (if_neg (Nat.not_lt.mpr h)))
  | source id =>
    simp only [hc, Chain.headerSize, Chain.footerSize] at h ⊢
    rw [prepare_source_eq, if_neg (by omega), if_neg (by omega), Nat.add_comm id.size]
  | repair id =>
    simp only [hc, Chain.headerSize, Chain.footerSize] at h ⊢
    rw [prepare_repair_eq, if_neg (by omega), if_neg (by omega)]
    rfl

/-- Without space `prepare` returns false, or panics if only the header fits. -/
theorem prepare_of_lt (h : buffer.capacity j.mem.length < j.size) : (∃ packet, j.prepare buffer = .ok (packet, none)) ∨
      j.chain.isRepair = true ∧ j.chain.headerSize ≤ buffer.capacity j.mem.length ∧
        j.prepare buffer = .error (.panic "slice: out of bounds") := by
  rw [prepare]
  rw [size] at h
  cases hc : j.chain with
  | rtp =>
    simp only [hc, Chain.headerSize, Chain.footerSize, Nat.add_zero] at h
    exact .inl ⟨_, (prepare_rtp_eq rfl).trans (congrArg _ (if_pos h))⟩
  | source id =>
    simp only [hc, Chain.headerSize, Chain.footerSize] at h
    rw [prepare_source_eq, if_pos h]
    split_ifs
    · exact .inl ⟨_, rfl⟩
    · exact .inl ⟨_, rfl⟩
  | repair id =>
    simp only [hc, Chain.headerSize, Chain.footerSize, Nat.add_zero] at h ⊢
    rw [prepare_repair_eq, if_pos h]
    split_ifs with hid
    · exact .inl ⟨_, rfl⟩
    · exact .inr ⟨rfl, Nat.le_of_not_lt hid, rfl⟩

theorem ending_composed {packet' : Parts} {window' : Span} (hr : j.chain.isRepair = false)
    (h : j.ending packet mem window = .composed packet' mem' window') : j.Padded := by
  unfold ending at h
  intro p hp
  have hlen : j.paddingLen = p := by rw [paddingLen, hp]; rfl
  rw [hlen] at h
  split at h
  case isFalse => cases h
  case isTrue hle =>
    split at h
    case isFalse => cases h
    case isTrue hmax => exact ⟨hr, hle, hmax⟩

theorem finish_prepared (window : Span) (hfits : o + j.size ≤ j.mem.length) :
    ∃ packet mem', (j.Padded → j.finish (j.preparedParts o) window = .ok (.composed packet mem' window) ∧
        mem'.length = j.mem.length ∧ j.Stored o mem') ∧
      ∀ p m w, j.finish (j.preparedParts o) window = .ok (.composed p m w) → j.Padded := by
  rw [size] at hfits
  simp only [preparedParts, Stored]
  cases hc : j.chain with
  | rtp =>
    simp only [hc, Chain.headerSize, Chain.footerSize] at hfits ⊢
    obtain ⟨packet, mem', hfinish, hmem⟩ := finish_rtp (o := o) window hc (by omega)
    refine ⟨packet, mem', fun hp => ⟨by rw [hfinish, hp.ending], (hmem hp.le.1 hp.le.2).1,
      fun _ => (hmem hp.le.1 hp.le.2).2, nofun⟩, fun p m w h => ?_⟩
    exact ending_composed (by rw [hc]; rfl) (Except.ok.inj (hfinish.symm.trans h))
  | source id =>
    simp only [hc, Chain.headerSize, Chain.footerSize] at hfits ⊢
    obtain ⟨packet, mem', bytes, hfinish, hbytes, hmem⟩ := finish_source (o := o) window hc (by omega)
    refine ⟨packet, mem', fun hp => ?_, fun p m w h => ?_⟩
    · obtain ⟨hlen, hin, hfooter⟩ := hmem hp.le.1 hp.le.2
      refine ⟨by rw [hfinish, hp.ending], hlen, fun _ => hin, fun id' hid' => ?_⟩
      cases hid'
      exact ⟨bytes, hbytes, fun _ => hfooter, nofun⟩
    · exact ending_composed (by rw [hc]; rfl) (Except.ok.inj (hfinish.symm.trans h))
  | repair id =>
    simp only [hc, Chain.headerSize, Chain.footerSize] at hfits ⊢
    obtain ⟨packet, mem', bytes, hfinish, hbytes, hlen, hheader, hpayload⟩ := finish_repair (o := o) window hc (by omega)
    have hpadded : j.Padded ↔ j.paddingSize = none := by
      simp [Padded, hc, Chain.isRepair, Option.eq_none_iff_forall_not_mem]
    refine ⟨packet, mem', fun hp => ⟨by rw [hfinish, if_pos (hpadded.mp hp)], hlen, nofun, fun id' hid' => ?_⟩,
      fun p m w h => hpadded.mpr ?_⟩
    · cases hid'
      exact ⟨bytes, hbytes, nofun, fun _ => ⟨hheader, hpayload⟩⟩
    · by_contra hsome
      rw [hfinish, if_neg hsome] at h
      cases h

theorem parse_stored (isAudio : UInt8 → Bool) (hfits : o + j.size ≤ mem.length)
    (hin : j.Stored o mem) (hp : j.paddingLen ≤ 255) :
    ∃ packet', j.chain.parser isAudio {} ⟨mem, o, j.size, hfits⟩ = .ok (packet', true) ∧
      j.Parsed j.carried packet' mem := by
  obtain ⟨hrtp, hid⟩ := hin
  revert hfits
  rw [size]
  cases hc : j.chain with
  | rtp =>
    intro hfits
    rw [hc] at hrtp
    obtain ⟨found, audio, hparse, hfound⟩ := parse_rtpIn isAudio hfits (hrtp rfl) hp
      (show ({} : Parts).rtp = none from rfl) rfl
    refine ⟨{ rtp := some found, audio }, hparse, fun _ => ⟨found, rfl, hfound⟩, fun id hid => ?_⟩
    rw [hc] at hid
    cases hid
  | source id =>
    intro hfits
    rw [hc] at hrtp hid
    obtain ⟨bytes, hbytes, hfooter, -⟩ := hid id rfl
    exact parse_sourceIn hc hfits (hrtp rfl) hp hbytes (hfooter rfl)
  | repair id =>
    intro hfits
    rw [hc] at hid
    obtain ⟨bytes, hbytes, -, hrepair⟩ := hid id rfl
    exact parse_repairIn hc hfits hbytes (hrepair rfl).1 (hrepair rfl).2

theorem run_prepared (h : j.Fits) : j.alignedBuffer.off + j.size ≤ j.mem.length ∧
    j.run = j.finish (j.preparedParts j.alignedBuffer.off) ⟨j.alignedBuffer.off, j.size⟩ := by
  have hcap := j.alignedBuffer_capacity
  have hoff := j.alignedBuffer_off
  have hbuf := j.fits
  have hfit : j.skipped + j.size ≤ j.capacity := h
  constructor
  · rw [capacity, Span.capacity] at hfit
    omega
  · rw [run_eq h, prepare_of_le (by omega)]
    rfl

theorem roundTrip (isAudio : UInt8 → Bool) (h : j.Fits) (hp : j.Padded) :
    ∃ packet mem window, j.RoundTrip isAudio packet mem window := by
  obtain ⟨hend, hrun⟩ := run_prepared h
  obtain ⟨packet, mem, hmem, -⟩ := finish_prepared ⟨j.alignedBuffer.off, j.size⟩ hend
  obtain ⟨hfinish, hlen, hstored⟩ := hmem hp
  exact ⟨packet, mem, _, hrun.trans hfinish, hend.trans_eq hlen.symm, parse_stored isAudio _ hstored hp.le.2⟩

/-! ## The contract of the composers -/

theorem fits_of_composed (h : j.run = .ok (.composed packet mem window)) : j.Fits ∧ j.Padded := by
  have hcap := j.alignedBuffer_capacity
  by_cases hskip : j.capacity < j.skipped
  · rw [run, align_eq, if_pos hskip] at h
    cases h
  by_cases hfits : j.Fits
  · obtain ⟨hend, hrun⟩ := run_prepared hfits
    obtain ⟨-, -, -, hpadded⟩ := finish_prepared ⟨j.alignedBuffer.off, j.size⟩ hend
    exact ⟨hfits, hpadded packet mem window (hrun.symm.trans h)⟩
  · rw [Fits] at hfits
    rw [run, align_eq, if_neg hskip, ok_bind] at h
    rcases prepare_of_lt (show j.alignedBuffer.capacity j.mem.length < j.size by omega) with
      ⟨packet, hprepare⟩ | ⟨-, -, hprepare⟩
    · simp [hprepare] at h
    · simp [hprepare] at h

theorem prepare_spec (hskip : ¬ j.capacity < j.skipped)
    (hok : j.chain.isRepair = true → j.skipped + j.chain.headerSize ≤ j.capacity → j.Fits) :
    ∃ packet r, j.prepare j.alignedBuffer = .ok (packet, r) ∧
      (r = none ↔ j.alignedBuffer.capacity j.mem.length < j.size) ∧
      ∀ w, r = some w → w.off + w.size ≤ j.mem.length ∧
        (payloadWindow packet).off = j.alignedBuffer.off + j.chain.headerSize := by
  have hcap := j.alignedBuffer_capacity
  by_cases hfits : j.Fits
  · obtain ⟨hend, -⟩ := run_prepared hfits
    rw [Fits] at hfits
    refine ⟨_, _, prepare_of_le (by omega), by simp; omega, fun w hw => ?_⟩
    cases hw
    refine ⟨hend, ?_⟩
    rw [preparedParts]
    cases j.chain <;> rfl
  · have hlt : j.alignedBuffer.capacity j.mem.length < j.size := by
      rw [Fits] at hfits
      omega
    rcases prepare_of_lt hlt with ⟨packet, hprepare⟩ | ⟨hr, hle, -⟩
    · exact ⟨packet, none, hprepare, by simp [hlt], nofun⟩
    · exact absurd (hok hr (by omega)) hfits

variable (j) in
structure Sound (isAudio : UInt8 → Bool) : Prop where
  aligns : ∃ r, j.align = .ok r ∧ (r = none ↔ j.capacity < j.skipped)
  prepares : ∀ buffer, j.align = .ok (some buffer) → ∃ packet r, j.prepare buffer = .ok (packet, r) ∧
      (r = none ↔ buffer.capacity j.mem.length < j.size) ∧
      ∀ w, r = some w → w.off + w.size ≤ j.mem.length
  payloadAligned : ∀ buffer packet window, j.align = .ok (some buffer) → j.prepare buffer = .ok (packet, some window) →
    ∀ alignment ∈ j.alignment, (j.base + (payloadWindow packet).off) % alignment = 0
  invertible : ∀ packet mem window, j.run = .ok (.composed packet mem window) →
    ∃ (h : window.off + window.size ≤ mem.length) (packet' : Parts),
      j.chain.parser isAudio {} ⟨mem, window.off, window.size, h⟩ = .ok (packet', true) ∧
        j.Parsed j.blockLength packet' mem

theorem parsed_carried {n m : Nat} (h : j.Parsed n packet mem)
    (h' : j.Parsed m packet mem) (id : PayloadIdFormat) (hid : j.chain.payloadId = some id) : n = m := by
  obtain ⟨found, hfound, -, -, -, -, hn, -⟩ := h.fec id hid
  obtain ⟨found', hfound', -, -, -, -, hm, -⟩ := h'.fec id hid
  rw [hfound] at hfound'
  cases hfound'
  rw [← hn, ← hm]

theorem aligned_payload (a : Nat) (ha : j.alignment = some a) :
    (j.base + (j.alignedBuffer.off + j.chain.headerSize)) % a = 0 := by
  obtain ⟨hpos, hmod⟩ := j.aligned a ha
  have hskip : j.skipped = padAs j.chain.headerSize a := by rw [skipped, ha]
  rw [alignedBuffer_off, hskip, show j.base + (j.buffer.off + padAs j.chain.headerSize a + j.chain.headerSize) =
      (j.base + j.buffer.off) + (padAs j.chain.headerSize a + j.chain.headerSize) by omega,
    Nat.add_mod, hmod, add_padAs_mod hpos]
  rfl

end

/-- The composers keep their contract except in two cases: the header of a repair packet fits into the buffer
and its payload does not, or the payload id has no place for the block length that was set. -/
theorem sound_iff (isAudio : UInt8 → Bool) (j : Job) :
    j.Sound isAudio ↔
      (j.chain.isRepair = true → j.skipped + j.chain.headerSize ≤ j.capacity → j.Fits) ∧
      (j.Fits → j.Padded → j.carried = j.blockLength) := by
  have hcap := j.alignedBuffer_capacity
  constructor
  · intro h
    refine ⟨fun hr hspace => ?_, fun hfits hp => ?_⟩
    · have halign : j.align = .ok (some j.alignedBuffer) := by rw [align_eq, if_neg (by omega)]
      obtain ⟨packet, r, hprepare, -⟩ := h.prepares _ halign
      cases hc : j.chain with
      | rtp => rw [hc] at hr; cases hr
      | source id => rw [hc] at hr; cases hr
      | repair id =>
        simp only [hc, Chain.headerSize] at hspace
        simp only [Fits, size, hc, Chain.headerSize, Chain.footerSize]
        by_contra hno
        rw [prepare, hc, prepare_repair_eq, if_neg (by omega), if_pos (by omega)] at hprepare
        cases hprepare
    · obtain ⟨packet, mem, window, hrun, hlt, packet', hparse, hparsed⟩ := roundTrip isAudio hfits hp
      obtain ⟨hlt', packet'', hparse', hparsed'⟩ := h.invertible packet mem window hrun
      rw [hparse] at hparse'
      cases hparse'
      cases hid : j.chain.payloadId with
      | none => rw [carried, hid]
      | some id => exact parsed_carried hparsed hparsed' id hid
  · rintro ⟨hspace, hcarried⟩
    refine ⟨⟨_, j.align_eq, by simp⟩, ?_, ?_, ?_⟩
    · intro buffer hbuffer
      rw [align_eq] at hbuffer
      split at hbuffer
      · cases hbuffer
      case isFalse hskip =>
        cases hbuffer
        obtain ⟨packet, r, hprepare, hnone, hwindow⟩ := prepare_spec hskip hspace
        exact ⟨packet, r, hprepare, hnone, fun w hw => (hwindow w hw).1⟩
    · intro buffer packet window hbuffer hprepare a ha
      rw [align_eq] at hbuffer
      split at hbuffer
      · cases hbuffer
      case isFalse hskip =>
        cases hbuffer
        obtain ⟨packet', r, hprepare', -, hwindow⟩ := prepare_spec hskip hspace
        rw [hprepare] at hprepare'
        cases hprepare'
        rw [(hwindow window rfl).2]
        exact aligned_payload a ha
    · intro packet mem window hrun
      obtain ⟨hfits, hp⟩ := fits_of_composed hrun
      obtain ⟨packet', mem', window', hrun', hlt, parsed, hparse, hparsed⟩ := roundTrip isAudio hfits hp
      rw [hrun] at hrun'
      cases hrun'
      rw [hcarried hfits hp] at hparsed
      exact ⟨hlt, parsed, hparse, hparsed⟩

def overflowingJob : Job where
  chain := .repair ldpcRepair
  base := 0
  mem := List.replicate 10 0
  buffer := ⟨0, 0⟩
  alignment := none
  payload := [1, 2, 3]
  paddingSize := none
  sourceId := 0
  seqnum := 0
  streamTimestamp := 0
  marker := false
  payloadType := 0
  encodingSymbolId := 1
  sourceBlockNumber := 0
  sourceBlockLength := 1
  blockLength := 2
  fits := by simp
  aligned := by simp
  payloadType_lt := by omega
  encodingSymbolId_lt := by
    intro id hid
    cases hid
    simp [ldpcRepair]
  sourceBlockLength_lt := by omega
  blockLength_lt := by omega

/-- `prepare` panics where it should return false. -/
theorem overflowingJob_panics :
    overflowingJob.prepare overflowingJob.buffer = .error (.panic "slice: out of bounds") ∧
      ¬ overflowingJob.Sound (fun _ => false) := by
  have hpanic : overflowingJob.prepare overflowingJob.buffer = .error (.panic "slice: out of bounds") := rfl
  refine ⟨hpanic, fun h => ?_⟩
  obtain ⟨packet, r, hprepare, -⟩ := h.prepares overflowingJob.buffer rfl
  rw [hpanic] at hprepare
  cases hprepare

end Job
end Roc.Packet
