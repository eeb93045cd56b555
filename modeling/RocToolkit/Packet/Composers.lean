import RocToolkit.Rtp.Parser

/-!
# RocToolkit.Packet.Composers

`rtp::Composer` and `fec::Composer`. A chain of composers carves the headers, the payload and the footer of a
packet out of one buffer (`align`, `prepare`), cuts padding off the payload (`pad`) and writes the headers
into the memory of the buffer (`compose`).

Slices are windows of that memory; moving a window beyond the end of the buffer is the panic of
`Slice::reslice`, so a composer that does not check for space can be seen to end in it.
-/

namespace Roc.Packet

open Codec

/-! ## Windows -/

namespace Span

/-- `Slice::capacity` in a buffer of `len` bytes. -/
def capacity (w : Span) (len : Nat) : Nat := len - w.off

/-- `Slice::reslice`. -/
def reslice (w : Span) (len lo hi : Nat) : Except Fault Span :=
  if lo > hi then .error (.panic "slice: invalid range")
  else if hi > w.capacity len then .error (.panic "slice: out of bounds")
  else .ok ⟨w.off + lo, hi - lo⟩

/-- `Slice::subslice`. -/
def subslice (w : Span) (lo hi : Nat) : Except Fault Span :=
  if lo > hi then .error (.panic "slice: invalid range")
  else if hi > w.size then .error (.panic "slice: out of bounds")
  else .ok ⟨w.off + lo, hi - lo⟩

theorem reslice_eq {w : Span} {len lo hi : Nat} (h : lo ≤ hi) (hc : hi ≤ w.capacity len) :
    w.reslice len lo hi = .ok ⟨w.off + lo, hi - lo⟩ := by
  rw [reslice, if_neg (by omega), if_neg (by omega)]

theorem subslice_eq {w : Span} {lo hi : Nat} (h : lo ≤ hi) (hs : hi ≤ w.size) :
    w.subslice lo hi = .ok ⟨w.off + lo, hi - lo⟩ := by
  rw [subslice, if_neg (by omega), if_neg (by omega)]

section
variable (w : Span) (len o n : Nat)

@[simp] theorem capacity_front : (⟨w.off, n⟩ : Span).capacity len = w.capacity len := rfl

@[simp] theorem capacity_add : (⟨w.off + o, n⟩ : Span).capacity len = w.capacity len - o := (Nat.sub_sub ..).symm

@[simp] theorem subslice_front : w.subslice 0 0 = .ok ⟨w.off, 0⟩ := rfl

@[simp] theorem subslice_end : (⟨o, n⟩ : Span).subslice n n = .ok ⟨o + n, 0⟩ := by
  rw [subslice_eq (Nat.le_refl _) (Nat.le_refl _), Nat.sub_self]

theorem reslice_front : w.reslice len 0 n =
    if w.capacity len < n then .error (.panic "slice: out of bounds") else .ok ⟨w.off, n⟩ := rfl

end

end Span

/-- `AlignOps::pad_as`. -/
def padAs (size alignment : Nat) : Nat :=
  if alignment = 0 then 0
  else
    let newSize := size / alignment * alignment
    let newSize := if newSize < size then newSize + alignment else newSize
    newSize - size

theorem add_padAs_mod {size alignment : Nat} (h : 0 < alignment) : (padAs size alignment + size) % alignment = 0 := by
  have hdiv := Nat.div_add_mod size alignment
  have hlt := Nat.mod_lt size h
  rw [Nat.mul_comm] at hdiv
  simp only [padAs, Nat.ne_of_gt h, if_false]
  split
  · have : size / alignment * alignment + alignment - size + size =
        (size / alignment + 1) * alignment := by rw [Nat.succ_mul]; omega
    rw [this, Nat.mul_mod_left]
  · have : size / alignment * alignment - size + size = size / alignment * alignment := by omega
    rw [this, Nat.mul_mod_left]

/-! ## Payload ids -/

/-- A payload id with its setters. `encode` writes the fields one after the other; `carried` is the block
length that the reader gets, whatever was set, and `esiBound` limits the symbol id. -/
structure PayloadIdFormat extends PayloadId where
  encode : (esi sbn k n : Nat) → Except Fault (List UInt8)
  carried : Nat → Nat
  esiBound : Nat
  esiBound_le : esiBound ≤ 2 ^ 16
  encode_spec : ∀ {esi sbn k n : Nat}, esi < esiBound → sbn < 2 ^ 16 → k < 2 ^ 16 → n < 2 ^ 16 →
    ∃ bytes, encode esi sbn k n = .ok bytes ∧ bytes.length = toPayloadId.size ∧
      toPayloadId.esi bytes = esi ∧ toPayloadId.sbn bytes = sbn ∧ toPayloadId.k bytes = k ∧
      toPayloadId.n bytes = carried n

theorem beNat_beBytes_append {w v : Nat} (rest : List UInt8) (h : v < 256 ^ w) : beNat w (beBytes w v ++ rest) = v := by
  rw [beNat_append _ _ _ (by rw [beBytes_length]), beNat_beBytes, Nat.mod_eq_of_lt h]

theorem beNat_beBytes_self {w v : Nat} (h : v < 256 ^ w) : beNat w (beBytes w v) = v := by
  rw [beNat_beBytes, Nat.mod_eq_of_lt h]

theorem drop_beBytes (w v : Nat) (rest : List UInt8) : (beBytes w v ++ rest).drop w = rest :=
  List.drop_left' (beBytes_length w v)

def ldpcSource : PayloadIdFormat where
  toPayloadId := ldpcSourcePayloadId
  encode esi sbn k _ := .ok (Codec.beBytes 2 sbn ++ (Codec.beBytes 2 esi ++ Codec.beBytes 2 k))
  carried _ := 0
  esiBound := 2 ^ 16
  esiBound_le := Nat.le_refl _
  encode_spec := by
    intro esi sbn k n hesi hsbn hk hn
    refine ⟨_, rfl, rfl, ?_, beNat_beBytes_append _ hsbn, ?_, rfl⟩
    · simp only [ldpcSourcePayloadId, drop_beBytes]
      exact beNat_beBytes_append _ hesi
    · simp only [ldpcSourcePayloadId, ← List.drop_drop (i := 2) (j := 2), drop_beBytes]
      exact beNat_beBytes_self hk

def ldpcRepair : PayloadIdFormat where
  toPayloadId := ldpcRepairPayloadId
  encode esi sbn k n := .ok (Codec.beBytes 2 sbn ++ (Codec.beBytes 2 esi ++ (Codec.beBytes 2 k ++ Codec.beBytes 2 n)))
  carried n := n
  esiBound := 2 ^ 16
  esiBound_le := Nat.le_refl _
  encode_spec := by
    intro esi sbn k n hesi hsbn hk hn
    refine ⟨_, rfl, rfl, ?_, beNat_beBytes_append _ hsbn, ?_, ?_⟩
    · simp only [ldpcRepairPayloadId, drop_beBytes]
      exact beNat_beBytes_append _ hesi
    · simp only [ldpcRepairPayloadId, ← List.drop_drop (i := 2) (j := 2), drop_beBytes]
      exact beNat_beBytes_append _ hk
    · simp only [ldpcRepairPayloadId, ← List.drop_drop (i := 4) (j := 2),
        ← List.drop_drop (i := 2) (j := 2), drop_beBytes]
      exact beNat_beBytes_self hn

def rs8m : PayloadIdFormat where
  toPayloadId := rs8mPayloadId
  encode esi sbn k _ := if esi >>> 8 ≠ 0 then .error (.panic "(val >> 8) != 0")
    else if sbn >>> 24 ≠ 0 then .error (.panic "(val >> 24) != 0")
    else .ok (Codec.beBytes 3 sbn ++ (Codec.beBytes 1 esi ++ Codec.beBytes 2 k))
  carried _ := 255
  esiBound := 2 ^ 8
  esiBound_le := by omega
  encode_spec := by
    intro esi sbn k n hesi hsbn hk hn
    have hesi8 : esi >>> 8 = 0 := by rw [Nat.shiftRight_eq_div_pow]; omega
    have hsbn24 : sbn >>> 24 = 0 := by rw [Nat.shiftRight_eq_div_pow]; omega
    refine ⟨_, by rw [if_neg (by simp [hesi8]), if_neg (by simp [hsbn24])], rfl, ?_,
      beNat_beBytes_append _ (by omega), ?_, rfl⟩
    · simp only [rs8mPayloadId, drop_beBytes]
      exact beNat_beBytes_append _ hesi
    · simp only [rs8mPayloadId, ← List.drop_drop (i := 3) (j := 1)]
      exact beNat_beBytes_self hk

/-! ## Composers -/

/-- A chain of composers, the outer one first; `null` is the missing inner composer. -/
inductive Composer where
  | null
  | rtp (inner : Composer)
  | fec (id : PayloadIdFormat) (repair : Bool) (pos : PayloadPos) (inner : Composer)

namespace Composer

def isNull : Composer → Bool
  | null => true
  | _ => false

def alignPayload (len : Nat) (buffer : Span) (headerSize alignment : Nat) : Except Fault (Option Span) := do
  let padding := padAs headerSize alignment
  if buffer.capacity len < padding then return none
  return some (← buffer.reslice len padding padding)

/-- `IComposer::align` for a buffer of `len` bytes at address `base`; `none` if it returns false. -/
def align (base len : Nat) : Composer → Span → Nat → Nat → Except Fault (Option Span)
  | null, _, _, _ => .error .nullPointer
  | rtp inner, buffer, headerSize, alignment => do
    if (base + buffer.off) % alignment ≠ 0 then
      throw (.panic "rtp composer: unexpected non-aligned buffer")
    let headerSize := headerSize + Rtp.Header.codec.width
    if inner.isNull then alignPayload len buffer headerSize alignment
    else align base len inner buffer headerSize alignment
  | fec id _ pos inner, buffer, headerSize, alignment => do
    if (base + buffer.off) % alignment ≠ 0 then
      throw (.panic "fec composer: unexpected non-aligned buffer")
    let headerSize := if pos = .header then headerSize + id.size else headerSize
    if inner.isNull then alignPayload len buffer headerSize alignment
    else align base len inner buffer headerSize alignment

/-- `IComposer::prepare`: the packet, and the window that it takes up if it returns true. -/
def prepare (len : Nat) : Composer → Parts → Span → Nat → Except Fault (Parts × Option Span)
  | null, _, _, _ => .error .nullPointer
  | rtp inner, packet, buffer, payloadSize => do
    let header ← buffer.subslice 0 0
    if header.capacity len < Rtp.Header.codec.width then return (packet, none)
    let header ← header.reslice len 0 Rtp.Header.codec.width
    let payload ← header.subslice header.size header.size
    let (packet, prepared) ← if inner.isNull then
        if payload.capacity len < payloadSize then pure (packet, none)
        else do pure (packet, some (← payload.reslice len 0 payloadSize))
      else prepare len inner packet payload payloadSize
    match prepared with
    | none => return (packet, none)
    | some payload =>
      addFlag packet.rtp.isSome
      let buffer ← buffer.reslice len 0 (header.size + payload.size)
      return ({ packet with rtp := some { header, payload } }, some buffer)
  | fec id repair pos inner, packet, buffer, payloadSize => do
    let payloadId ← buffer.subslice 0 0
    if pos = .header ∧ payloadId.capacity len < id.size then return (packet, none)
    let payloadId ← if pos = .header then payloadId.reslice len 0 id.size else pure payloadId
    let payload ← payloadId.subslice payloadId.size payloadId.size
    let (packet, prepared) ← if inner.isNull then do pure (packet, some (← payload.reslice len 0 payloadSize))
      else prepare len inner packet payload payloadSize
    match prepared with
    | none => return (packet, none)
    | some payload =>
      let payloadId ← if pos = .footer then payload.subslice payload.size payload.size
        else pure payloadId
      if pos = .footer ∧ payloadId.capacity len < id.size then return (packet, none)
      let payloadId ← if pos = .footer then payloadId.reslice len 0 id.size else pure payloadId
      if repair then addFlag packet.repair
      addFlag packet.fec.isSome
      let fec : FecParts :=
        { fecScheme := id.fecScheme
          payloadId := some payloadId
          payload }
      let buffer ← buffer.reslice len 0 (payloadId.size + payload.size)
      return ({ packet with fec := some fec, repair := packet.repair || repair }, some buffer)

/-- `IComposer::pad`. -/
def pad : Composer → Parts → Nat → Except Fault (Parts × Bool)
  | null, _, _ => .error .nullPointer
  | rtp inner, packet, paddingSize => do
    if !inner.isNull then pad inner packet paddingSize
    else match packet.rtp with
    | none => throw (.panic "rtp composer: unexpected non-rtp packet")
    | some part =>
      if part.padding.isSome then throw (.panic "rtp composer: can't pad packet twice")
      let payloadSize := part.payload.size
      if payloadSize < paddingSize then return (packet, false)
      let padding ← part.payload.subslice (payloadSize - paddingSize) payloadSize
      let payload ← part.payload.subslice 0 (payloadSize - paddingSize)
      return ({ packet with rtp := some { part with payload, padding := some padding } }, true)
  | fec _ _ _ inner, packet, paddingSize =>
    if !inner.isNull then pad inner packet paddingSize else .ok (packet, false)

def store (mem : List UInt8) (w : Span) (bytes : List UInt8) : Except Fault (List UInt8) :=
  if bytes.length ≤ w.size ∧ w.off + bytes.length ≤ mem.length then .ok (Memory.write mem w.off bytes)
  else .error .outOfBounds

/-- The header that `rtp::Composer::compose` writes. -/
def rtpHeader (part : RtpParts) (padded : Bool) : Except Fault Rtp.Header := do
  let header : Rtp.Header := {}
  let header ← header.setVersion Rtp.V2
  let header := { header with
    ssrc := part.sourceId
    seqnum := part.seqnum
    timestamp := part.streamTimestamp }
  let header := header.setMarker part.marker
  let header ← header.setPayloadType (UInt8.ofNat part.payloadType)
  return if padded then header.setPadding true else header

def paddingBytes (size : Nat) : List UInt8 := List.replicate (size - 1) 0 ++ [UInt8.ofNat size]

/-- `IComposer::compose`: the memory with the headers, and whether it returns true. -/
def compose : Composer → Parts → List UInt8 → Except Fault (List UInt8 × Bool)
  | null, _, _ => .error .nullPointer
  | rtp inner, packet, mem => do
    match packet.rtp with
    | none => throw (.panic "rtp composer: unexpected non-rtp packet")
    | some part =>
      if part.header.size ≠ Rtp.Header.codec.width then
        throw (.panic "rtp composer: unexpected rtp header size")
      -- a null slice has no bytes
      let padding := part.padding.getD ⟨0, 0⟩
      let header ← rtpHeader part (0 < padding.size)
      let mem ← store mem part.header (Rtp.Header.codec.encode header)
      if padding.size > 255 then return (mem, false)
      let mem ← if 0 < padding.size then store mem padding (paddingBytes padding.size) else pure mem
      if inner.isNull then return (mem, true) else compose inner packet mem
  | fec id _ _ inner, packet, mem => do
    match packet.fec with
    | none => throw (.panic "fec composer: unexpected non-fec packet")
    | some part =>
      let payloadId := part.payloadId.getD ⟨0, 0⟩
      if payloadId.size ≠ id.size then throw (.panic "fec composer: unexpected payload id size")
      if part.encodingSymbolId >>> 16 ≠ 0 then throw (.panic "(fec.encoding_symbol_id >> 16) != 0")
      if part.sourceBlockLength >>> 16 ≠ 0 then throw (.panic "(fec.source_block_length >> 16) != 0")
      if part.blockLength >>> 16 ≠ 0 then throw (.panic "(fec.block_length >> 16) != 0")
      let bytes ← id.encode part.encodingSymbolId part.sourceBlockNumber.toNat part.sourceBlockLength part.blockLength
      let mem ← store mem payloadId bytes
      if inner.isNull then return (mem, true) else compose inner packet mem

end Composer
end Roc.Packet
