import RocToolkit.Rtcp.Headers

/-!
# RocToolkit.Rtcp.Builder

`rtcp::Builder`: a state machine that writes a compound packet into a buffer of limited capacity.
`curPkt` are the bytes of `cur_pkt_slice_`, which lies behind `result` until `end_packet_` appends it;
`cur_pkt_header_` points to its first byte, and `cur_xr_block_header_` to the byte at
`curXrBlockHeader`. A packet that does not fit sets `truncated`, after which calls only move the state
machine. A `Call` is one call of a public method, and `run` a sequence of them.
-/

namespace Roc.Rtcp

/-- `rtcp::Config`; times are in nanoseconds. -/
structure Config where
  reportInterval : Int := 200000000
  inactivityTimeout : Int := 5000000000
  enableSrRr : Bool := true
  enableXr : Bool := true
  enableSdes : Bool := true
deriving DecidableEq, Repr

/-- Rewrite the record at `pos` of a byte string. -/
def patchAt {α : Type} (c : Codec α) (pos : Nat) (f : α → Except Fault α) (bytes : List UInt8) :
    Except Fault (List UInt8) := do
  let a ← f (c.decode (bytes.drop pos))
  return bytes.take pos ++ (c.encode a ++ bytes.drop (pos + c.width))

theorem patchAt_ok {α : Type} {c : Codec α} {f : α → Except Fault α} {a : α}
    {l r bytes : List UInt8} (h : patchAt c l.length f (l ++ (c.encode a ++ r)) = .ok bytes) :
    ∃ b, f a = .ok b ∧ bytes = l ++ (c.encode b ++ r) := by
  have hdrop : (l ++ (c.encode a ++ r)).drop (l.length + c.width) = r := by
    rw [List.drop_length_add_append, ← c.encode_length a, List.drop_left]
  obtain ⟨b, hf, hret⟩ := bind_eq_ok.mp h
  rw [List.drop_left, c.decode_encode] at hf
  rw [List.take_left, hdrop] at hret
  cases hret
  exact ⟨b, hf, rfl⟩

namespace Builder

inductive State where
  | top | srHead | srReport | rrHead | rrReport | xrHead | xrDlrrHead | xrDlrrReport
  | sdesHead | sdesChunk | byeHead | byeSsrc | byeReason | last
deriving DecidableEq, Repr

end Builder

structure Builder where
  state : Builder.State
  config : Config
  capacity : Nat
  result : List UInt8
  curPkt : List UInt8
  hasPktHeader : Bool
  curXrBlockHeader : Nat
  srWritten : Bool
  rrWritten : Bool
  cnameWritten : Bool
  truncated : Bool
deriving DecidableEq, Repr

namespace Builder

/-- `Builder::Builder` over a slice of the given capacity. -/
def new (config : Config) (capacity : Nat) : Builder :=
  { state := .top, config, capacity, result := [], curPkt := [],
    hasPktHeader := false, curXrBlockHeader := 0, srWritten := false, rrWritten := false,
    cnameWritten := false, truncated := false }

/-- `is_ok`. -/
def isOk (b : Builder) : Bool := !b.truncated

/-- `roc_panic_if_msg(...)`. -/
def panicIf (cond : Bool) (msg : String) : Except Fault Unit :=
  if cond then .error (.panic ("rtcp builder: " ++ msg)) else .ok ()

def checkOrder (b : Builder) (states : List State) : Except Fault Unit :=
  panicIf (!states.contains b.state) "wrong call order"

def checkReportFirst (b : Builder) : Except Fault Unit :=
  panicIf (b.config.enableSrRr && !b.srWritten && !b.rrWritten) "first packet should be SR or RR"

/-- `begin_packet_`, with the bytes that its caller writes into the new packet. -/
def beginPacket (b : Builder) (bytes : List UInt8) : Builder :=
  if b.truncated then b
  else if b.capacity - b.result.length < bytes.length then
    { b with curPkt := [], truncated := true }
  else { b with curPkt := bytes, hasPktHeader := true }

/-- `add_block_`, with the bytes that its caller writes into the new block. -/
def addBlock (b : Builder) (bytes : List UInt8) : Builder :=
  if b.truncated then b
  else if b.capacity - b.result.length - b.curPkt.length < bytes.length then
    { b with truncated := true }
  else { b with curPkt := b.curPkt ++ bytes }

def updateHeader (b : Builder) (f : PacketHeader → Except Fault PacketHeader) : Except Fault Builder := do
  let curPkt ← patchAt PacketHeader.codec 0 f b.curPkt
  return { b with curPkt }

/-- `end_packet_`. -/
def endPacket (b : Builder) : Except Fault Builder := do
  if b.truncated then
    return b
  panicIf (b.curPkt.length < PacketHeader.codec.width || b.curPkt.length % 4 != 0) "malfromed packet"
  let b ← b.updateHeader (·.setLenBytes b.curPkt.length)
  return { b with result := b.result ++ b.curPkt }

/-! ## Methods -/

def beginSr (b : Builder) (sr : SenderReportPacket) : Except Fault Builder := do
  b.checkOrder [.top]
  panicIf (!b.config.enableSrRr) "SR is disabled"
  return { b with state := .srHead, srWritten := true }.beginPacket (SenderReportPacket.codec.encode sr)

def beginRr (b : Builder) (rr : ReceiverReportPacket) : Except Fault Builder := do
  b.checkOrder [.top]
  panicIf (!b.config.enableSrRr) "RR is disabled"
  return { b with state := .rrHead, rrWritten := true }.beginPacket (ReceiverReportPacket.codec.encode rr)

/-- `add_sr_report` and `add_rr_report`, which differ in their states. -/
def addReport (b : Builder) (head reported : State) (report : ReceptionReportBlock) : Except Fault Builder := do
  b.checkOrder [head, reported]
  let b := { b with state := reported }.addBlock (ReceptionReportBlock.codec.encode report)
  if b.truncated then
    return b
  let b ← b.updateHeader (·.setLenBytes b.curPkt.length)
  b.updateHeader PacketHeader.incCounter

def addSrReport (b : Builder) (report : ReceptionReportBlock) : Except Fault Builder :=
  b.addReport .srHead .srReport report

def addRrReport (b : Builder) (report : ReceptionReportBlock) : Except Fault Builder :=
  b.addReport .rrHead .rrReport report

def endFrom (b : Builder) (states : List State) : Except Fault Builder := do
  b.checkOrder states
  { b with state := .top }.endPacket

def endSr (b : Builder) : Except Fault Builder := b.endFrom [.srHead, .srReport]

def endRr (b : Builder) : Except Fault Builder := b.endFrom [.rrHead, .rrReport]

def beginSdes (b : Builder) : Except Fault Builder := do
  b.checkOrder [.top]
  panicIf (!b.config.enableSdes) "SDES is disabled"
  b.checkReportFirst
  return { b with state := .sdesHead }.beginPacket (PacketHeader.codec.encode (.reset RTCP_SDES))

def beginSdesChunk (b : Builder) (chunk : SdesChunk) : Except Fault Builder := do
  b.checkOrder [.sdesHead]
  let b := { b with state := .sdesChunk, cnameWritten := false }.addBlock (Codec.be32.encode chunk.ssrc)
  if b.truncated then
    return b
  b.updateHeader PacketHeader.incCounter

def itemBytes (item : SdesItem) : List UInt8 :=
  SdesItemHeader.codec.encode ⟨item.type, UInt8.ofNat item.text.length⟩ ++ item.text.bytes

def addSdesItem (b : Builder) (item : SdesItem) : Except Fault Builder := do
  b.checkOrder [.sdesChunk]
  panicIf (item.text.length > maxTextLen) "SDES item text can't longer than 255 bytes"
  if item.type = SDES_CNAME then
    panicIf (item.text.length = 0) "CNAME item text can't be empty string"
    panicIf b.cnameWritten "each SDES chunk should have exactly one CNAME item"
  return { b with cnameWritten := b.cnameWritten || item.type = SDES_CNAME }.addBlock (itemBytes item)

def endSdesChunk (b : Builder) : Except Fault Builder := do
  b.checkOrder [.sdesChunk]
  panicIf (!b.cnameWritten) "each SDES chunk should have exactly one CNAME item"
  return { b with state := .sdesHead }.addBlock (List.replicate (paddingLen b.curPkt.length 1) 0)

def endSdes (b : Builder) : Except Fault Builder := b.endFrom [.sdesHead]

def beginBye (b : Builder) : Except Fault Builder := do
  b.checkOrder [.top]
  b.checkReportFirst
  return { b with state := .byeHead }.beginPacket (PacketHeader.codec.encode (.reset RTCP_BYE))

def addByeSsrc (b : Builder) (ssrc : UInt32) : Except Fault Builder := do
  b.checkOrder [.byeHead, .byeSsrc]
  let b := { b with state := .byeSsrc }.addBlock (Codec.be32.encode ssrc)
  if b.truncated then
    return b
  b.updateHeader PacketHeader.incCounter

def reasonBytes (reason : CString) : List UInt8 := Codec.u8.encode (UInt8.ofNat reason.length) ++
    (reason.bytes ++ List.replicate (paddingLen (1 + reason.length) 0) 0)

def addByeReason (b : Builder) (reason : CString) : Except Fault Builder := do
  b.checkOrder [.byeSsrc]
  panicIf (reason.length > maxTextLen) "BYE reason text can't longer than 255 bytes"
  return { b with state := .byeReason }.addBlock (reasonBytes reason)

def endBye (b : Builder) : Except Fault Builder := b.endFrom [.byeSsrc, .byeReason]

def beginXr (b : Builder) (xr : XrPacket) : Except Fault Builder := do
  b.checkOrder [.top]
  panicIf (!b.config.enableXr) "XR is disabled"
  b.checkReportFirst
  return { b with state := .xrHead }.beginPacket (XrPacket.codec.encode xr)

def addXrBlock {α : Type} (b : Builder) (c : Codec α) (blk : α) : Except Fault Builder := do
  b.checkOrder [.xrHead]
  let pos := b.curPkt.length
  let b := b.addBlock (c.encode blk)
  if b.truncated then
    return b
  let curPkt ← patchAt XrBlockHeader.codec pos (·.setLenBytes c.width) b.curPkt
  return { b with curPkt, curXrBlockHeader := pos }

def addXrRrtr (b : Builder) (rrtr : XrRrtrBlock) : Except Fault Builder := b.addXrBlock XrRrtrBlock.codec rrtr

def addXrMeasurementInfo (b : Builder) (blk : XrMeasurementInfoBlock) : Except Fault Builder :=
  b.addXrBlock XrMeasurementInfoBlock.codec blk

def addXrDelayMetrics (b : Builder) (blk : XrDelayMetricsBlock) : Except Fault Builder :=
  b.addXrBlock XrDelayMetricsBlock.codec blk

def addXrQueueMetrics (b : Builder) (blk : XrQueueMetricsBlock) : Except Fault Builder :=
  b.addXrBlock XrQueueMetricsBlock.codec blk

def beginXrDlrr (b : Builder) (dlrr : XrDlrrBlock) : Except Fault Builder := do
  b.checkOrder [.xrHead]
  let pos := b.curPkt.length
  let b := { b with state := .xrDlrrHead }.addBlock (XrDlrrBlock.codec.encode dlrr)
  if b.truncated then
    return b
  return { b with curXrBlockHeader := pos }

def addXrDlrrReport (b : Builder) (report : XrDlrrSubblock) : Except Fault Builder := do
  b.checkOrder [.xrDlrrHead, .xrDlrrReport]
  return { b with state := .xrDlrrReport }.addBlock (XrDlrrSubblock.codec.encode report)

def endXrDlrr (b : Builder) : Except Fault Builder := do
  b.checkOrder [.xrDlrrHead, .xrDlrrReport]
  let b := { b with state := .xrHead }
  if b.truncated then
    return b
  let curPkt ← patchAt XrBlockHeader.codec b.curXrBlockHeader
    (·.setLenBytes (b.curPkt.length - b.curXrBlockHeader)) b.curPkt
  return { b with curPkt }

def endXr (b : Builder) : Except Fault Builder := b.endFrom [.xrHead]

/-- `add_padding`: the last packet, now at the end of the result, gets a longer length and the
padding flag before the capacity is checked. -/
def addPadding (b : Builder) (paddingLen : Nat) : Except Fault Builder := do
  b.checkOrder [.top]
  panicIf (paddingLen % 4 != 0 || paddingLen < 1 || paddingLen > 255) "bad packet padding"
  let b := { b with state := .last }
  if b.truncated then
    return b
  panicIf (!b.hasPktHeader) "can't add padding without adding packets"
  let result ← patchAt PacketHeader.codec (b.result.length - b.curPkt.length)
    (fun h => (h.setPadding true).setLenBytes (h.lenBytes + paddingLen)) b.result
  let b := { b with result }
  if b.capacity - b.result.length < paddingLen then
    return { b with truncated := true }
  return { b with result := b.result ++ (List.replicate (paddingLen - 1) 0 ++ [UInt8.ofNat paddingLen]) }

/-! ## Sequences of calls -/

inductive Call where
  | beginSr (sr : SenderReportPacket)
  | addSrReport (report : ReceptionReportBlock)
  | endSr
  | beginRr (rr : ReceiverReportPacket)
  | addRrReport (report : ReceptionReportBlock)
  | endRr
  | beginSdes
  | beginSdesChunk (chunk : SdesChunk)
  | addSdesItem (item : SdesItem)
  | endSdesChunk
  | endSdes
  | beginBye
  | addByeSsrc (ssrc : UInt32)
  | addByeReason (reason : CString)
  | endBye
  | beginXr (xr : XrPacket)
  | addXrRrtr (blk : XrRrtrBlock)
  | beginXrDlrr (blk : XrDlrrBlock)
  | addXrDlrrReport (report : XrDlrrSubblock)
  | endXrDlrr
  | addXrMeasurementInfo (blk : XrMeasurementInfoBlock)
  | addXrDelayMetrics (blk : XrDelayMetricsBlock)
  | addXrQueueMetrics (blk : XrQueueMetricsBlock)
  | endXr
  | addPadding (paddingLen : Nat)
deriving DecidableEq, Repr

def call (b : Builder) : Call → Except Fault Builder
  | .beginSr sr => b.beginSr sr
  | .addSrReport report => b.addSrReport report
  | .endSr => b.endSr
  | .beginRr rr => b.beginRr rr
  | .addRrReport report => b.addRrReport report
  | .endRr => b.endRr
  | .beginSdes => b.beginSdes
  | .beginSdesChunk chunk => b.beginSdesChunk chunk
  | .addSdesItem item => b.addSdesItem item
  | .endSdesChunk => b.endSdesChunk
  | .endSdes => b.endSdes
  | .beginBye => b.beginBye
  | .addByeSsrc ssrc => b.addByeSsrc ssrc
  | .addByeReason reason => b.addByeReason reason
  | .endBye => b.endBye
  | .beginXr xr => b.beginXr xr
  | .addXrRrtr blk => b.addXrRrtr blk
  | .beginXrDlrr blk => b.beginXrDlrr blk
  | .addXrDlrrReport report => b.addXrDlrrReport report
  | .endXrDlrr => b.endXrDlrr
  | .addXrMeasurementInfo blk => b.addXrMeasurementInfo blk
  | .addXrDelayMetrics blk => b.addXrDelayMetrics blk
  | .addXrQueueMetrics blk => b.addXrQueueMetrics blk
  | .endXr => b.endXr
  | .addPadding n => b.addPadding n

def run : Builder → List Call → Except Fault Builder
  | b, [] => .ok b
  | b, c :: cs => b.call c >>= fun b' => b'.run cs

/-! ## Truncation -/

section
variable {b b' : Builder}

section
variable (ht : b.truncated = true)
include ht

theorem beginPacket_truncated (bytes : List UInt8) : b.beginPacket bytes = b := if_pos ht

theorem addBlock_truncated (bytes : List UInt8) : b.addBlock bytes = b := if_pos ht

theorem endPacket_truncated : b.endPacket = .ok b := if_pos ht

theorem call_truncated {c : Call} (hok : b.call c = .ok b') : b'.truncated = true := by
  cases c <;> simp only [call, beginSr, addSrReport, addRrReport, addReport, endSr, endFrom, beginRr,
    endRr, beginSdes, beginSdesChunk, addSdesItem, endSdesChunk, endSdes, beginBye, addByeSsrc,
    addByeReason, endBye, beginXr, addXrRrtr, addXrBlock, beginXrDlrr, addXrDlrrReport, endXrDlrr,
    addXrMeasurementInfo, addXrDelayMetrics, addXrQueueMetrics, endXr, addPadding, bind_eq_ok,
    pure_eq_ok, beginPacket_truncated, addBlock_truncated, endPacket_truncated, ht, if_true,
    Except.ok.injEq] at hok
  case addSdesItem item =>
    obtain ⟨_, -, _, -, hok⟩ := hok
    split at hok
    · simp only [bind_eq_ok] at hok
      obtain ⟨_, -, _, -, hok⟩ := hok
      cases hok
      rfl
    · cases hok
      rfl
  all_goals grind

end

theorem run_not_truncated : ∀ {calls : List Call} {b : Builder}, b.run calls = .ok b' →
    b'.truncated = false → b.truncated = false := by
  intro calls
  induction calls with
  | nil => rintro b ⟨⟩ ht; exact ht
  | cons c cs ih =>
    intro b hok ht
    obtain ⟨b1, hcall, hrun⟩ := bind_eq_ok.mp hok
    have ht1 := ih hrun ht
    cases hb : b.truncated with
    | false => rfl
    | true => rw [call_truncated hb hcall] at ht1; cases ht1

end

end Builder
end Roc.Rtcp
