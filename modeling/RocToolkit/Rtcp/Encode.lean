import RocToolkit.Rtcp.Builder
import RocToolkit.Rtcp.Decode

/-!
# RocToolkit.Rtcp.Encode

What a sequence of builder calls describes, and the bytes it stands for. A `Script` collects the
packets that the calls describe, without any bytes; `Described.bytes` is the wire format of such a
packet. The two meet in `Sim`: a builder that has not truncated holds the bytes of its script, and
every accepted call keeps it so.
-/

namespace Roc.Rtcp

open List

open Builder (Call itemBytes reasonBytes)

open PacketHeader Builder Codec

/-! ## Described packets -/

inductive Described where
  | sr (packet : SenderReportPacket) (blocks : List ReceptionReportBlock)
  | rr (packet : ReceiverReportPacket) (blocks : List ReceptionReportBlock)
  | sdes (chunks : List (SdesChunk × List SdesItem))
  | bye (ssrcs : List UInt32) (reason : Option CString)
  | xr (packet : XrPacket) (blocks : List XrBlock)
deriving DecidableEq, Repr

inductive Draft where
  | sr (packet : SenderReportPacket) (blocks : List ReceptionReportBlock)
  | rr (packet : ReceiverReportPacket) (blocks : List ReceptionReportBlock)
  | sdes (chunks : List (SdesChunk × List SdesItem)) (current : Option (SdesChunk × List SdesItem))
  | bye (ssrcs : List UInt32) (reason : Option CString)
  | xr (packet : XrPacket) (blocks : List XrBlock) (current : Option (XrDlrrBlock × List XrDlrrSubblock))
deriving DecidableEq, Repr

structure Script where
  packets : List Described
  draft : Option Draft
deriving DecidableEq, Repr

namespace Draft

def addReport (blk : ReceptionReportBlock) : Draft → Draft
  | .sr p bs => .sr p (bs ++ [blk])
  | .rr p bs => .rr p (bs ++ [blk])
  | d => d

def beginChunk (c : SdesChunk) : Draft → Draft
  | .sdes cs none => .sdes cs (some (c, []))
  | d => d

def addItem (i : SdesItem) : Draft → Draft
  | .sdes cs (some (c, is)) => .sdes cs (some (c, is ++ [i]))
  | d => d

def endChunk : Draft → Draft
  | .sdes cs (some c) => .sdes (cs ++ [c]) none
  | d => d

def addSsrc (ssrc : UInt32) : Draft → Draft
  | .bye ssrcs none => .bye (ssrcs ++ [ssrc]) none
  | d => d

def addReason (r : CString) : Draft → Draft
  | .bye ssrcs none => .bye ssrcs (some r)
  | d => d

def addXrBlock (b : XrBlock) : Draft → Draft
  | .xr p bs none => .xr p (bs ++ [b]) none
  | d => d

def beginDlrr (b : XrDlrrBlock) : Draft → Draft
  | .xr p bs none => .xr p bs (some (b, []))
  | d => d

def addDlrrReport (r : XrDlrrSubblock) : Draft → Draft
  | .xr p bs (some (b, rs)) => .xr p bs (some (b, rs ++ [r]))
  | d => d

def endDlrr : Draft → Draft
  | .xr p bs (some (b, rs)) => .xr p (bs ++ [.dlrr b rs]) none
  | d => d

def close : Draft → Option Described
  | .sr p bs => some (.sr p bs)
  | .rr p bs => some (.rr p bs)
  | .sdes cs none => some (.sdes cs)
  | .bye ssrcs r => some (.bye ssrcs r)
  | .xr p bs none => some (.xr p bs)
  | _ => none

end Draft

namespace Script

def begin_ (s : Script) (d : Draft) : Script := { s with draft := some d }

def modify (s : Script) (f : Draft → Draft) : Script := { s with draft := s.draft.map f }

def finish (s : Script) : Script :=
  match s.draft.bind Draft.close with
  | some e => ⟨s.packets ++ [e], none⟩
  | none => s

def call (s : Script) : Call → Script
  | .beginSr sr => s.begin_ (.sr sr [])
  | .addSrReport blk | .addRrReport blk => s.modify (.addReport blk)
  | .beginRr rr => s.begin_ (.rr rr [])
  | .beginSdes => s.begin_ (.sdes [] none)
  | .beginSdesChunk c => s.modify (.beginChunk c)
  | .addSdesItem i => s.modify (.addItem i)
  | .endSdesChunk => s.modify .endChunk
  | .beginBye => s.begin_ (.bye [] none)
  | .addByeSsrc ssrc => s.modify (.addSsrc ssrc)
  | .addByeReason r => s.modify (.addReason r)
  | .beginXr xr => s.begin_ (.xr xr [] none)
  | .addXrRrtr b => s.modify (.addXrBlock (.rrtr b))
  | .beginXrDlrr b => s.modify (.beginDlrr b)
  | .addXrDlrrReport r => s.modify (.addDlrrReport r)
  | .endXrDlrr => s.modify .endDlrr
  | .addXrMeasurementInfo b => s.modify (.addXrBlock (.measurementInfo b))
  | .addXrDelayMetrics b => s.modify (.addXrBlock (.delayMetrics b))
  | .addXrQueueMetrics b => s.modify (.addXrBlock (.queueMetrics b))
  | .endSr | .endRr | .endSdes | .endBye | .endXr => s.finish
  | .addPadding _ => s

section
variable {s : Script} {d : Draft} (h : s.draft = some d)
include h

theorem modify_some {f : Draft → Draft} : s.modify f = { s with draft := some (f d) } := by
  simp [modify, h]

theorem finish_some {e : Described} (hc : d.close = some e) : s.finish = ⟨s.packets ++ [e], none⟩ := by
  simp [finish, h, hc]

end
end Script

def described (calls : List Call) : List Described := (calls.foldl Script.call ⟨[], none⟩).packets

/-! ## Bytes -/

/-- First byte of a packet header with version 2, no padding and `n` blocks. -/
def countByte (n : Nat) : UInt8 := setBitField (setBitField 0 V2 6 0x03) (UInt8.ofNat n) 0 0x1F

/-- Length field of a packet or a block of `len` bytes. -/
def lenField (len : Nat) : UInt16 := UInt16.ofNat (len / 4 - 1)

def XrBlockHeader.filled (h : XrBlockHeader) (len : Nat) : XrBlockHeader :=
  { h with length := lenField len }

def XrBlock.filled : XrBlock → XrBlock
  | .rrtr b => .rrtr { b with header := b.header.filled 12 }
  | .dlrr b rs => .dlrr { b with header := b.header.filled (4 + rs.length * 12) } rs
  | .measurementInfo b => .measurementInfo { b with header := b.header.filled 32 }
  | .delayMetrics b => .delayMetrics { b with header := b.header.filled 28 }
  | .queueMetrics b => .queueMetrics { b with header := b.header.filled 16 }

def XrBlock.rawBytes : XrBlock → List UInt8
  | .rrtr b => XrRrtrBlock.codec.encode b
  | .dlrr b rs => XrDlrrBlock.codec.encode b ++ XrDlrrSubblock.codec.encodeAll rs
  | .measurementInfo b => XrMeasurementInfoBlock.codec.encode b
  | .delayMetrics b => XrDelayMetricsBlock.codec.encode b
  | .queueMetrics b => XrQueueMetricsBlock.codec.encode b

def XrBlock.bytes (b : XrBlock) : List UInt8 := b.filled.rawBytes

def openChunkBytes (c : SdesChunk × List SdesItem) : List UInt8 := Codec.be32.encode c.1.ssrc ++ c.2.flatMap itemBytes

def chunkBytes (c : SdesChunk × List SdesItem) : List UInt8 :=
  openChunkBytes c ++ List.replicate (paddingLen (openChunkBytes c).length 1) 0

namespace Described

def type : Described → UInt8
  | .sr _ _ => RTCP_SR
  | .rr _ _ => RTCP_RR
  | .sdes _ => RTCP_SDES
  | .bye _ _ => RTCP_BYE
  | .xr _ _ => RTCP_XR

def count : Described → Nat
  | .sr _ bs => bs.length
  | .rr _ bs => bs.length
  | .sdes cs => cs.length
  | .bye ssrcs _ => ssrcs.length
  | .xr _ _ => 0

def body : Described → List UInt8
  | .sr p bs => (SenderReportPacket.codec.encode p).drop 4 ++ ReceptionReportBlock.codec.encodeAll bs
  | .rr p bs =>
    (ReceiverReportPacket.codec.encode p).drop 4 ++ ReceptionReportBlock.codec.encodeAll bs
  | .sdes cs => cs.flatMap chunkBytes
  | .bye ssrcs reason => Codec.be32.encodeAll ssrcs ++ reason.elim [] reasonBytes
  | .xr p bs => (XrPacket.codec.encode p).drop 4 ++ bs.flatMap XrBlock.bytes

def size (d : Described) : Nat := 4 + d.body.length

def header (d : Described) : PacketHeader := ⟨countByte d.count, d.type, lenField d.size⟩

def bytes (d : Described) : List UInt8 := PacketHeader.codec.encode d.header ++ d.body

/-- What the traversers should return for the packet: the described values under the filled in
headers, and no errors. -/
def decoded (d : Described) : Packet :=
  match d with
  | .sr p bs => .sr { p with header := d.header } bs
  | .rr p bs => .rr { p with header := d.header } bs
  | .sdes cs => .sdes (some (cs.flatMap fun c => .chunk c.1 :: c.2.map .item, false))
  | .bye ssrcs reason => .bye (some (ssrcs.map .ssrc ++ reason.toList.map .reason, false))
  | .xr p bs => .xr (some ({ p with header := d.header }, bs.map XrBlock.filled, false))

end Described

namespace Draft

def type : Draft → UInt8
  | .sr _ _ => RTCP_SR
  | .rr _ _ => RTCP_RR
  | .sdes _ _ => RTCP_SDES
  | .bye _ _ => RTCP_BYE
  | .xr _ _ _ => RTCP_XR

def count : Draft → Nat
  | .sr _ bs => bs.length
  | .rr _ bs => bs.length
  | .sdes cs c => cs.length + c.toList.length
  | .bye ssrcs _ => ssrcs.length
  | .xr _ _ _ => 0

def body : Draft → List UInt8
  | .sr p bs => (Described.sr p bs).body
  | .rr p bs => (Described.rr p bs).body
  | .sdes cs c => (Described.sdes cs).body ++ c.elim [] openChunkBytes
  | .bye ssrcs reason => (Described.bye ssrcs reason).body
  | .xr p bs c => (Described.xr p bs).body ++
      c.elim [] fun d => XrDlrrBlock.codec.encode d.1 ++ XrDlrrSubblock.codec.encodeAll d.2

def states : Draft → List Builder.State
  | .sr _ _ => [.srHead, .srReport]
  | .rr _ _ => [.rrHead, .rrReport]
  | .sdes _ none => [.sdesHead]
  | .sdes _ (some _) => [.sdesChunk]
  | .bye [] none => [.byeHead]
  | .bye [] (some _) => []
  | .bye (_ :: _) none => [.byeSsrc]
  | .bye (_ :: _) (some _) => [.byeReason]
  | .xr _ _ none => [.xrHead]
  | .xr _ _ (some _) => [.xrDlrrHead, .xrDlrrReport]

end Draft

/-! ## Well-formed descriptions -/

/-- Calls of the round trip: headers in freshly reset form, items that do not look like the end of a
chunk, no padding. -/
def Builder.Call.Plain : Call → Prop
  | .beginSr sr => sr.header = .reset RTCP_SR
  | .beginRr rr => rr.header = .reset RTCP_RR
  | .beginXr xr => xr.header = .reset RTCP_XR
  | .addXrRrtr b => b.header = .reset XR_RRTR
  | .beginXrDlrr b => b.header = .reset XR_DLRR
  | .addXrMeasurementInfo b => b.header = .reset XR_MEASUREMENT_INFO
  | .addXrDelayMetrics b => b.header = .reset XR_DELAY_METRICS
  | .addXrQueueMetrics b => b.header = .reset XR_QUEUE_METRICS
  | .addSdesItem i => i.type ≠ 0
  | .addPadding _ => False
  | _ => True

instance (c : Call) : Decidable c.Plain := by
  cases c <;> unfold Builder.Call.Plain <;> infer_instance

def SdesItem.Fine (i : SdesItem) : Prop := i.type ≠ 0 ∧ i.text.length ≤ 255

def XrBlock.Fine : XrBlock → Prop
  | .rrtr b => b.header = .reset XR_RRTR
  | .dlrr b rs => b.header = .reset XR_DLRR ∧ 4 + rs.length * 12 ≤ 65532
  | .measurementInfo b => b.header = .reset XR_MEASUREMENT_INFO
  | .delayMetrics b => b.header = .reset XR_DELAY_METRICS
  | .queueMetrics b => b.header = .reset XR_QUEUE_METRICS

def Described.Fine : Described → Prop
  | .sr _ _ => True
  | .rr _ _ => True
  | .sdes cs => ∀ c ∈ cs, ∀ i ∈ c.2, i.Fine
  | .bye _ reason => ∀ r ∈ reason, r.length ≤ 255
  | .xr _ bs => ∀ b ∈ bs, b.Fine

def Draft.Fine : Draft → Prop
  | .sr _ _ => True
  | .rr _ _ => True
  | .sdes cs c => (Described.sdes cs).Fine ∧ ∀ d ∈ c, ∀ i ∈ d.2, i.Fine
  | .bye ssrcs reason => (Described.bye ssrcs reason).Fine
  | .xr p bs c => (Described.xr p bs).Fine ∧ ∀ d ∈ c, d.1.header = .reset XR_DLRR

structure Described.WellFormed (d : Described) : Prop where
  fine : d.Fine
  count_le : d.count ≤ 31
  size_le : d.size ≤ 65532
  size_mod : d.size % 4 = 0

structure Holds (b : Builder) (d : Draft) : Prop where
  state : b.state ∈ d.states
  count_le : d.count ≤ 31
  fine : d.Fine
  bytes : ∃ len, b.curPkt = PacketHeader.codec.encode ⟨countByte d.count, d.type, len⟩ ++ d.body
  block : ∀ p bs c, d = .xr p bs (some c) → b.curXrBlockHeader = 4 + (Described.xr p bs).body.length

/-- A builder that has not truncated holds the bytes of its script. -/
structure Sim (b : Builder) (s : Script) : Prop where
  result : b.result = s.packets.flatMap Described.bytes
  wf : ∀ d ∈ s.packets, d.WellFormed
  draft : s.draft.elim (b.state = .top) (Holds b)

/-! ## The builder's helpers -/

section
variable {b b' : Builder}

theorem panicIf_ok {cond : Bool} {msg : String} {u : Unit} (h : panicIf cond msg = .ok u) : cond = false := by
  cases cond with
  | false => rfl
  | true => simp [panicIf] at h

theorem checkOrder_ok {states : List Builder.State} {u : Unit}
    (h : b.checkOrder states = .ok u) : b.state ∈ states := by
  have := panicIf_ok h
  simpa using this

variable {bytes body : List UInt8} {t : UInt8} {len : UInt16}

theorem beginPacket_of_ok (h : (b.beginPacket bytes).truncated = false) :
    b.beginPacket bytes = { b with curPkt := bytes, hasPktHeader := true } := by
  unfold beginPacket at h ⊢
  split_ifs at h ⊢ with ht
  · rw [ht] at h
    cases h
  · rfl

theorem addBlock_of_ok (h : (b.addBlock bytes).truncated = false) :
    b.addBlock bytes = { b with curPkt := b.curPkt ++ bytes } := by
  unfold addBlock at h ⊢
  split_ifs at h ⊢ with ht
  · rw [ht] at h
    cases h
  · rfl

theorem not_truncated {b1 : Builder} {rest : Except Fault Builder}
    (hok : (if b1.truncated then .ok b1 else rest) = .ok b') (ht : b'.truncated = false) :
    b1.truncated = false ∧ rest = .ok b' := by
  cases hb : b1.truncated with
  | true =>
    rw [hb, if_pos rfl] at hok
    cases hok
    rw [hb] at ht
    cases ht
  | false => exact ⟨rfl, by rwa [hb, if_neg (by simp)] at hok⟩

variable {h h' : PacketHeader} {n : Nat}

theorem updateHeader_ok {f : PacketHeader → Except Fault PacketHeader}
    (body : List UInt8) (hb : b.curPkt = codec.encode h ++ body) (hok : b.updateHeader f = .ok b') :
    ∃ h', f h = .ok h' ∧ b' = { b with curPkt := codec.encode h' ++ body } := by
  obtain ⟨bytes, hp, hret⟩ := bind_eq_ok.mp hok
  cases hret
  rw [hb] at hp
  obtain ⟨h', hf, rfl⟩ := patchAt_ok (l := []) hp
  exact ⟨h', hf, rfl⟩

theorem sizeToRtcpLength_ok {len : Nat} {w : UInt16} (hok : sizeToRtcpLength len = .ok w) :
    w = lenField len ∧ len ≤ 65532 ∧ len % 4 = 0 := by
  have hle := (rtcpLengthToSize_of hok).2
  unfold sizeToRtcpLength at hok
  split_ifs at hok with _ _ hmod
  exact ⟨(Except.ok.inj hok).symm, hle, not_not.mp hmod⟩

theorem setLenBytes_ok {len : Nat} (hok : h.setLenBytes len = .ok h') :
    h' = { h with length := lenField len } ∧ len ≤ 65532 ∧ len % 4 = 0 := by
  unfold setLenBytes at hok
  split at hok
  case h_1 w hw =>
    cases hok
    obtain ⟨rfl, hlen⟩ := sizeToRtcpLength_ok hw
    exact ⟨rfl, hlen⟩
  case h_2 => cases hok

theorem countByte_facts : ∀ n : Fin 32, ∀ t : UInt8, ∀ len : UInt16,
    (⟨countByte n, t, len⟩ : PacketHeader).counter = n ∧
    (⟨countByte n, t, len⟩ : PacketHeader).version = V2 ∧
    (⟨countByte n, t, len⟩ : PacketHeader).hasPadding = false ∧
    setBitField (countByte n) (UInt8.ofNat (n + 1)) 0 0x1F = countByte (n + 1) := by
  intro n t len
  unfold counter version hasPadding
  dsimp only
  revert n
  decide

theorem incCounter_ok (hn : n ≤ 31) (hok : (⟨countByte n, t, len⟩ : PacketHeader).incCounter = .ok h') :
    n + 1 ≤ 31 ∧ h' = ⟨countByte (n + 1), t, len⟩ := by
  obtain ⟨hc, -, -, hset⟩ := countByte_facts ⟨n, by omega⟩ t len
  simp only at hc hset
  unfold incCounter setCounter at hok
  rw [hc] at hok
  split at hok
  · cases hok
  · rename_i hle
    cases hok
    exact ⟨Nat.not_lt.mp hle, by simp only [hset]⟩

theorem counted_ok (hok : (if (b.addBlock bytes).truncated then
      (.ok (b.addBlock bytes) : Except Fault Builder)
    else (b.addBlock bytes).updateHeader PacketHeader.incCounter) = .ok b')
    (ht : b'.truncated = false)
    (hb : b.curPkt = PacketHeader.codec.encode ⟨countByte n, t, len⟩ ++ body) (hn : n ≤ 31) :
    n + 1 ≤ 31 ∧ b' = { b with curPkt :=
      PacketHeader.codec.encode ⟨countByte (n + 1), t, len⟩ ++ (body ++ bytes) } := by
  obtain ⟨htr, hok⟩ := not_truncated hok ht
  rw [addBlock_of_ok htr] at hok
  obtain ⟨h', hinc, rfl⟩ := updateHeader_ok (body ++ bytes)
    (h := ⟨countByte n, t, len⟩) (by simp only [hb, append_assoc]) hok
  obtain ⟨hle, rfl⟩ := incCounter_ok hn hinc
  exact ⟨hle, rfl⟩

theorem addReport_ok {head reported : Builder.State} {blk : ReceptionReportBlock}
    (hok : b.addReport head reported blk = .ok b') (ht : b'.truncated = false)
    (hb : b.curPkt = codec.encode ⟨countByte n, t, len⟩ ++ body) (hn : n ≤ 31) :
    n + 1 ≤ 31 ∧ ∃ len', b' = { b with
      state := reported
      curPkt := codec.encode ⟨countByte (n + 1), t, len'⟩ ++ (body ++ ReceptionReportBlock.codec.encode blk) } := by
  obtain ⟨_, -, hok⟩ := bind_eq_ok.mp hok
  obtain ⟨htr, hok⟩ := not_truncated hok ht
  rw [addBlock_of_ok htr] at hok
  obtain ⟨b1, hlen, hinc⟩ := bind_eq_ok.mp hok
  obtain ⟨h1, hset, rfl⟩ := updateHeader_ok (h := ⟨countByte n, t, len⟩)
    (body ++ ReceptionReportBlock.codec.encode blk) (by simp only [hb, append_assoc]) hlen
  obtain ⟨rfl, -, -⟩ := setLenBytes_ok hset
  obtain ⟨h2, hcnt, rfl⟩ := updateHeader_ok _ rfl hinc
  obtain ⟨hle, rfl⟩ := incCounter_ok hn hcnt
  exact ⟨hle, _, rfl⟩

theorem endPacket_ok (hok : b.endPacket = .ok b') (ht : b.truncated = false)
    (hb : b.curPkt = codec.encode ⟨countByte n, t, len⟩ ++ body) :
    4 + body.length ≤ 65532 ∧ (4 + body.length) % 4 = 0 ∧ b'.state = b.state ∧
      b'.result = b.result ++ (codec.encode ⟨countByte n, t, lenField (4 + body.length)⟩ ++ body) := by
  have hsize : b.curPkt.length = 4 + body.length := by
    rw [hb, length_append, codec.encode_length, codec_width]
  unfold endPacket at hok
  rw [if_neg (by rw [ht]; simp)] at hok
  obtain ⟨_, -, hok⟩ := bind_eq_ok.mp hok
  obtain ⟨b1, hlen, hret⟩ := bind_eq_ok.mp hok
  obtain ⟨h1, hset, rfl⟩ := updateHeader_ok _ hb hlen
  rw [hsize] at hset
  obtain ⟨rfl, hle, hmod⟩ := setLenBytes_ok hset
  cases hret
  exact ⟨hle, hmod, rfl, rfl⟩

end

/-! ## Every call keeps the simulation -/

section
variable {b b' : Builder} {s : Script} {d : Draft}

theorem Sim.with_draft (h : Sim b s) (hr : b'.result = b.result) (hd : Holds b' d) :
    Sim b' { s with draft := some d } :=
  ⟨hr.trans h.result, h.wf, hd⟩

theorem Sim.modify {f : Draft → Draft} {e : Draft} (h : Sim b s) (hd : s.draft = some d) (hf : f d = e)
    (hr : b'.result = b.result) (he : Holds b' e) : Sim b' (s.modify f) := by
  rw [Script.modify_some hd, hf]
  exact h.with_draft hr he

variable {states : List Builder.State} {rest : List UInt8}

open Described

theorem Sim.finish (h : Sim b s) (hd : Holds b d) (ht : b.truncated = false) {e : Described}
    (hcount : d.count = e.count) (htype : d.type = e.type) (hbody : d.body = e.body) (hfine : e.Fine)
    (hok : b.endFrom states = .ok b') : Sim b' ⟨s.packets ++ [e], none⟩ := by
  obtain ⟨len, hb⟩ := hd.bytes
  obtain ⟨_, -, hend⟩ := bind_eq_ok.mp hok
  obtain ⟨hle, hmod, hst, hres⟩ := endPacket_ok (b := { b with state := .top }) hend ht hb
  have hcnt := hd.count_le
  rw [hbody] at hle hmod
  rw [hcount] at hcnt
  refine ⟨?_, ?_, hst⟩
  · rw [hres, h.result, flatMap_append, hcount, htype, hbody]
    simp [bytes, header, size]
  · intro x hx
    rcases mem_append.mp hx with hx | hx
    · exact h.wf x hx
    · rw [mem_singleton.mp hx]
      exact ⟨hfine, hcnt, hle, hmod⟩

theorem Sim.begin_ (h : Sim b s) {bytes : List UInt8} (ht : (b'.beginPacket bytes).truncated = false)
    (hr : b'.result = b.result) (hst : b'.state ∈ d.states) (hcount : d.count = 0) (hfine : d.Fine)
    (hbytes : bytes = codec.encode (.reset d.type) ++ d.body)
    (hopen : ∀ p bs c, d ≠ .xr p bs (some c)) : Sim (b'.beginPacket bytes) (s.begin_ d) := by
  rw [beginPacket_of_ok ht]
  refine h.with_draft hr ⟨hst, by omega, hfine, ⟨0, ?_⟩, fun p bs c he => absurd he (hopen p bs c)⟩
  rw [hcount]
  exact hbytes

theorem Sim.enter (h : Sim b s) {rest : Unit → Except Fault Builder}
    (hok : b.checkOrder states >>= rest = .ok b') (hne : Builder.State.top ∉ states) :
    ∃ d len, s.draft = some d ∧ Holds b d ∧ b.state ∈ states ∧
      b.curPkt = codec.encode ⟨countByte d.count, d.type, len⟩ ++ d.body ∧ rest () = .ok b' := by
  obtain ⟨_, hst, hok⟩ := bind_eq_ok.mp hok
  have hst := checkOrder_ok hst
  have hd := h.draft
  cases hs : s.draft with
  | none =>
    rw [hs] at hd
    exact absurd (hd ▸ hst) hne
  | some d =>
    rw [hs] at hd
    obtain ⟨len, hb⟩ := hd.bytes
    exact ⟨d, len, rfl, hd, hst, hb, hok⟩

section
variable (h : Holds b d)
include h

open Draft

theorem Holds.is_sr (hst : b.state ∈ [.srHead, .srReport]) : ∃ p bs, d = .sr p bs := by
  have hmem := h.state
  unfold states at hmem
  split at hmem
  case h_1 => exact ⟨_, _, rfl⟩
  all_goals (exfalso; revert hst hmem; cases b.state <;> simp)

theorem Holds.is_rr (hst : b.state ∈ [.rrHead, .rrReport]) : ∃ p bs, d = .rr p bs := by
  have hmem := h.state
  unfold states at hmem
  split at hmem
  case h_2 => exact ⟨_, _, rfl⟩
  all_goals (exfalso; revert hst hmem; cases b.state <;> simp)

theorem Holds.is_sdes (hst : b.state ∈ [.sdesHead]) : ∃ cs, d = .sdes cs none := by
  have hmem := h.state
  unfold states at hmem
  rw [mem_singleton.mp hst] at hmem
  split at hmem
  case h_3 => exact ⟨_, rfl⟩
  all_goals simp at hmem

theorem Holds.is_chunk (hst : b.state ∈ [.sdesChunk]) : ∃ cs c, d = .sdes cs (some c) := by
  have hmem := h.state
  unfold states at hmem
  rw [mem_singleton.mp hst] at hmem
  split at hmem
  case h_4 => exact ⟨_, _, rfl⟩
  all_goals simp at hmem

theorem Holds.is_bye (hst : b.state ∈ [.byeHead, .byeSsrc]) :
    ∃ ssrcs, d = .bye ssrcs none ∧ (b.state = .byeSsrc → ssrcs ≠ []) := by
  have hmem := h.state
  unfold states at hmem
  split at hmem
  case h_5 => exact ⟨_, rfl, fun he => by rw [he] at hmem; simp at hmem⟩
  case h_7 => exact ⟨_, rfl, by simp⟩
  all_goals (exfalso; revert hst hmem; cases b.state <;> simp)

theorem Holds.is_bye_end (hst : b.state ∈ [.byeSsrc, .byeReason]) : ∃ ssrcs r, d = .bye ssrcs r ∧ ssrcs ≠ [] := by
  have hmem := h.state
  unfold states at hmem
  split at hmem
  case h_7 | h_8 => exact ⟨_, _, rfl, by simp⟩
  all_goals (exfalso; revert hst hmem; cases b.state <;> simp)

theorem Holds.is_xr (hst : b.state ∈ [.xrHead]) : ∃ p bs, d = .xr p bs none := by
  have hmem := h.state
  unfold states at hmem
  rw [mem_singleton.mp hst] at hmem
  split at hmem
  case h_9 => exact ⟨_, _, rfl⟩
  all_goals simp at hmem

theorem Holds.is_dlrr (hst : b.state ∈ [.xrDlrrHead, .xrDlrrReport]) : ∃ p bs c, d = .xr p bs (some c) := by
  have hmem := h.state
  unfold states at hmem
  split at hmem
  case h_10 => exact ⟨_, _, _, rfl⟩
  all_goals (exfalso; revert hst hmem; cases b.state <;> simp)

end

/-! ### Wire format of headers -/

theorem drop_header (h : PacketHeader) (r : List UInt8) : (codec.encode h ++ r).drop 4 = r :=
  drop_left' (codec.encode_length h)

theorem encode_replaced {old new : List UInt8} {h h' : PacketHeader}
    (hold : old = codec.encode h ++ rest) (hnew : new = codec.encode h' ++ rest) :
    new = codec.encode h' ++ old.drop 4 := by
  rw [hold, drop_header, hnew]

theorem sr_encode (p : SenderReportPacket) (h : PacketHeader) : SenderReportPacket.codec.encode { p with header := h } =
      codec.encode h ++ (SenderReportPacket.codec.encode p).drop 4 :=
  encode_replaced (h := p.header) rfl rfl

theorem rr_encode (p : ReceiverReportPacket) (h : PacketHeader) :
    ReceiverReportPacket.codec.encode { p with header := h } =
      codec.encode h ++ (ReceiverReportPacket.codec.encode p).drop 4 :=
  encode_replaced (h := p.header) rfl rfl

theorem xr_encode (p : XrPacket) (h : PacketHeader) : XrPacket.codec.encode { p with header := h } =
      codec.encode h ++ (XrPacket.codec.encode p).drop 4 :=
  encode_replaced (h := p.header) rfl rfl

/-! ### Calls -/

section
variable (h : Sim b s) (ht : b'.truncated = false)
include h ht

theorem sim_beginSr {sr : SenderReportPacket} (hp : sr.header = .reset RTCP_SR)
    (hok : b.beginSr sr = .ok b') : Sim b' (s.call (.beginSr sr)) := by
  obtain ⟨_, -, hok⟩ := bind_eq_ok.mp hok
  obtain ⟨_, -, hok⟩ := bind_eq_ok.mp hok
  cases hok
  refine h.begin_ ht rfl (by simp [Draft.states]) rfl trivial ?_ nofun
  rw [Draft.type, Draft.body, body, encodeAll, flatMap_nil, append_nil, ← sr_encode, ← hp]

theorem sim_beginRr {rr : ReceiverReportPacket} (hp : rr.header = .reset RTCP_RR)
    (hok : b.beginRr rr = .ok b') : Sim b' (s.call (.beginRr rr)) := by
  obtain ⟨_, -, hok⟩ := bind_eq_ok.mp hok
  obtain ⟨_, -, hok⟩ := bind_eq_ok.mp hok
  cases hok
  refine h.begin_ ht rfl (by simp [Draft.states]) rfl trivial ?_ nofun
  rw [Draft.type, Draft.body, body, encodeAll, flatMap_nil, append_nil, ← rr_encode, ← hp]

theorem sim_beginXr {xr : XrPacket} (hp : xr.header = .reset RTCP_XR)
    (hok : b.beginXr xr = .ok b') : Sim b' (s.call (.beginXr xr)) := by
  obtain ⟨_, -, hok⟩ := bind_eq_ok.mp hok
  obtain ⟨_, -, hok⟩ := bind_eq_ok.mp hok
  obtain ⟨_, -, hok⟩ := bind_eq_ok.mp hok
  cases hok
  refine h.begin_ ht rfl (by simp [Draft.states]) rfl ⟨by simp [Described.Fine], by simp⟩ ?_ (by simp)
  rw [Draft.type, Draft.body, body, flatMap_nil, append_nil, Option.elim_none, append_nil, ← xr_encode, ← hp]

theorem sim_beginSdes (hok : b.beginSdes = .ok b') : Sim b' (s.call .beginSdes) := by
  obtain ⟨_, -, hok⟩ := bind_eq_ok.mp hok
  obtain ⟨_, -, hok⟩ := bind_eq_ok.mp hok
  obtain ⟨_, -, hok⟩ := bind_eq_ok.mp hok
  cases hok
  exact h.begin_ ht rfl (by simp [Draft.states]) rfl ⟨by simp [Described.Fine], by simp⟩
    (by simp [Draft.type, Draft.body, body]) nofun

theorem sim_beginBye (hok : b.beginBye = .ok b') : Sim b' (s.call .beginBye) := by
  obtain ⟨_, -, hok⟩ := bind_eq_ok.mp hok
  obtain ⟨_, -, hok⟩ := bind_eq_ok.mp hok
  cases hok
  exact h.begin_ ht rfl (by simp [Draft.states]) rfl (by simp [Draft.Fine, Described.Fine])
    (by simp [Draft.type, Draft.body, body, encodeAll]) nofun

variable {blk : ReceptionReportBlock}

theorem sim_addSrReport (hok : b.addSrReport blk = .ok b') : Sim b' (s.call (.addSrReport blk)) := by
  obtain ⟨d, len, hd, hh, hst, hb, -⟩ := h.enter hok (by simp)
  obtain ⟨p, bs, rfl⟩ := hh.is_sr hst
  obtain ⟨hle, len', rfl⟩ := addReport_ok hok ht hb hh.count_le
  refine h.modify hd (e := .sr p (bs ++ [blk])) rfl rfl ⟨by simp [Draft.states], ?_, trivial, ⟨len', ?_⟩, by simp⟩
  · simpa [Draft.count] using hle
  · simp [Draft.count, Draft.type, Draft.body, body, encodeAll]

theorem sim_addRrReport (hok : b.addRrReport blk = .ok b') : Sim b' (s.call (.addRrReport blk)) := by
  obtain ⟨d, len, hd, hh, hst, hb, -⟩ := h.enter hok (by simp)
  obtain ⟨p, bs, rfl⟩ := hh.is_rr hst
  obtain ⟨hle, len', rfl⟩ := addReport_ok hok ht hb hh.count_le
  refine h.modify hd (e := .rr p (bs ++ [blk])) rfl rfl ⟨by simp [Draft.states], ?_, trivial, ⟨len', ?_⟩, by simp⟩
  · simpa [Draft.count] using hle
  · simp [Draft.count, Draft.type, Draft.body, body, encodeAll]

theorem sim_beginSdesChunk {chunk : SdesChunk} (hok : b.beginSdesChunk chunk = .ok b') :
    Sim b' (s.call (.beginSdesChunk chunk)) := by
  obtain ⟨d, len, hd, hh, hst, hb, hok⟩ := h.enter hok (by simp)
  obtain ⟨cs, rfl⟩ := hh.is_sdes hst
  obtain ⟨hle, rfl⟩ := counted_ok (b := { b with state := .sdesChunk, cnameWritten := false }) hok ht hb hh.count_le
  refine h.modify hd (e := .sdes cs (some (chunk, []))) rfl rfl ⟨by simp [Draft.states], ?_, ⟨hh.fine.1, by simp⟩, ⟨len, ?_⟩, by simp⟩
  · simpa [Draft.count] using hle
  · simp [Draft.count, Draft.type, Draft.body, openChunkBytes]

theorem sim_addSdesItem {item : SdesItem} (hp : item.type ≠ 0) (hok : b.addSdesItem item = .ok b') :
    Sim b' (s.call (.addSdesItem item)) := by
  obtain ⟨d, len, hd, hh, hst, hb, hok⟩ := h.enter hok (by simp)
  obtain ⟨cs, ⟨c, is⟩, rfl⟩ := hh.is_chunk hst
  obtain ⟨_, hlen, hok⟩ := bind_eq_ok.mp hok
  have hlen : item.text.length ≤ 255 := by simpa [maxTextLen] using panicIf_ok hlen
  -- whether the item is a CNAME only matters for the flags
  have hret : b' = { b with cnameWritten := b.cnameWritten || item.type = SDES_CNAME }.addBlock (itemBytes item) := by
    split at hok
    · obtain ⟨_, -, hok⟩ := bind_eq_ok.mp hok
      obtain ⟨_, -, hok⟩ := bind_eq_ok.mp hok
      exact (Except.ok.inj hok).symm
    · exact (Except.ok.inj hok).symm
  rw [hret] at ht ⊢
  rw [addBlock_of_ok ht]
  refine h.modify hd (e := .sdes cs (some (c, is ++ [item]))) rfl rfl ⟨?_, hh.count_le, ⟨hh.fine.1, ?_⟩, ⟨len, ?_⟩, by simp⟩
  · simp [Draft.states, hst]
  · simp only [Option.mem_def, Option.some.injEq, forall_eq']
    intro i hi
    rcases mem_append.mp hi with hi | hi
    · exact hh.fine.2 _ rfl i hi
    · rw [mem_singleton.mp hi]
      exact ⟨hp, hlen⟩
  · simp only [hb]
    simp [Draft.count, Draft.type, Draft.body, openChunkBytes]

end

theorem paddingLen_add {k : Nat} (hk : k % 4 = 0) (n m : Nat) : paddingLen (k + n) m = paddingLen n m := by
  have : (k + n + m) % 4 = (n + m) % 4 := by omega
  simp only [paddingLen, this]

theorem chunkBytes_length_mod (c : SdesChunk × List SdesItem) : (chunkBytes c).length % 4 = 0 := by
  rw [chunkBytes, length_append, length_replicate]
  exact add_paddingLen_mod _ _

theorem flatMap_chunkBytes_length_mod (cs : List (SdesChunk × List SdesItem)) :
    (cs.flatMap chunkBytes).length % 4 = 0 := by
  induction cs with
  | nil => rfl
  | cons c cs ih =>
    have := chunkBytes_length_mod c
    rw [flatMap_cons, length_append]
    omega

theorem sim_endSdesChunk (h : Sim b s) (hok : b.endSdesChunk = .ok b') (ht : b'.truncated = false) :
    Sim b' (s.call .endSdesChunk) := by
  obtain ⟨d, len, hd, hh, hst, hb, hok⟩ := h.enter hok (by simp)
  obtain ⟨cs, c, rfl⟩ := hh.is_chunk hst
  obtain ⟨_, -, hok⟩ := bind_eq_ok.mp hok
  cases hok
  have hpad : paddingLen b.curPkt.length 1 = paddingLen (openChunkBytes c).length 1 := by
    have hmod := flatMap_chunkBytes_length_mod cs
    rw [hb]
    simp only [Draft.body, body, Option.elim_some, length_append, codec.encode_length, codec_width]
    rw [← Nat.add_assoc, paddingLen_add (by omega)]
  rw [hpad] at ht ⊢
  rw [addBlock_of_ok ht]
  refine h.modify hd (e := .sdes (cs ++ [c]) none) rfl rfl ⟨by simp [Draft.states], ?_, ⟨?_, by simp⟩, ⟨len, ?_⟩, by simp⟩
  · simpa [Draft.count] using hh.count_le
  · intro x hx
    rcases mem_append.mp hx with hx | hx
    · exact hh.fine.1 x hx
    · rw [mem_singleton.mp hx]
      exact hh.fine.2 c rfl
  · simp only [hb]
    simp [Draft.count, Draft.type, Draft.body, body, chunkBytes]

theorem sim_addByeSsrc {ssrc : UInt32} (h : Sim b s) (hok : b.addByeSsrc ssrc = .ok b')
    (ht : b'.truncated = false) : Sim b' (s.call (.addByeSsrc ssrc)) := by
  obtain ⟨d, len, hd, hh, hst, hb, hok⟩ := h.enter hok (by simp)
  obtain ⟨ssrcs, rfl, -⟩ := hh.is_bye hst
  obtain ⟨hle, rfl⟩ := counted_ok (b := { b with state := .byeSsrc }) hok ht hb hh.count_le
  refine h.modify hd (e := .bye (ssrcs ++ [ssrc]) none) rfl rfl ⟨?_, ?_, by simp [Draft.Fine, Described.Fine], ⟨len, ?_⟩, by simp⟩
  · cases ssrcs <;> simp [Draft.states]
  · simpa [Draft.count] using hle
  · simp [Draft.count, Draft.type, Draft.body, body, encodeAll]

theorem sim_addByeReason {reason : CString} (h : Sim b s) (hok : b.addByeReason reason = .ok b')
    (ht : b'.truncated = false) : Sim b' (s.call (.addByeReason reason)) := by
  obtain ⟨d, len, hd, hh, hst, hb, hok⟩ := h.enter hok (by simp)
  obtain ⟨_, hlen, hok⟩ := bind_eq_ok.mp hok
  cases hok
  have hst : b.state = .byeSsrc := mem_singleton.mp hst
  have hlen : reason.length ≤ 255 := by simpa [maxTextLen] using panicIf_ok hlen
  obtain ⟨ssrcs, rfl, hne⟩ := hh.is_bye (by simp [hst])
  rw [addBlock_of_ok ht]
  refine h.modify hd (e := .bye ssrcs (some reason)) rfl rfl ⟨?_, hh.count_le, ?_, ⟨len, ?_⟩, by simp⟩
  · cases ssrcs with
    | nil => exact absurd rfl (hne hst)
    | cons _ _ => simp [Draft.states]
  · simpa [Draft.Fine, Described.Fine] using hlen
  · simp only [hb]
    simp [Draft.count, Draft.type, Draft.body, body]

theorem XrBlockHeader.setLenBytes_ok {h h' : XrBlockHeader} {len : Nat}
    (hok : h.setLenBytes len = .ok h') : h' = h.filled len ∧ len ≤ 65532 := by
  unfold XrBlockHeader.setLenBytes at hok
  split at hok
  case h_1 w hw =>
    cases hok
    obtain ⟨rfl, hle, -⟩ := sizeToRtcpLength_ok hw
    exact ⟨rfl, hle⟩
  case h_2 => cases hok

theorem addXrBlock_ok {α : Type} {c : Codec α} {blk : α} {h : XrBlockHeader}
    (he : c.encode blk = XrBlockHeader.codec.encode h ++ rest)
    (hok : b.addXrBlock c blk = .ok b') (ht : b'.truncated = false) :
    b' = { b with
      curXrBlockHeader := b.curPkt.length
      curPkt := b.curPkt ++ (XrBlockHeader.codec.encode (h.filled c.width) ++ rest) } := by
  obtain ⟨_, -, hok⟩ := bind_eq_ok.mp hok
  obtain ⟨htr, hok⟩ := not_truncated hok ht
  rw [addBlock_of_ok htr] at hok
  obtain ⟨bytes, hp, hret⟩ := bind_eq_ok.mp hok
  simp only [he] at hp
  obtain ⟨h', hf, rfl⟩ := patchAt_ok hp
  obtain ⟨rfl, -⟩ := XrBlockHeader.setLenBytes_ok hf
  cases hret
  rfl

theorem Sim.add_xr_block {p : XrPacket} {bs : List XrBlock} (len : UInt16) (h : Sim b s)
    (hh : Holds b (.xr p bs none)) {blk : XrBlock} (hf : blk.Fine) (hst : b'.state = .xrHead)
    (hr : b'.result = b.result)
    (hb : b'.curPkt = codec.encode ⟨countByte 0, RTCP_XR, len⟩ ++ ((Draft.xr p bs none).body ++ blk.bytes)) :
    Sim b' { s with draft := some (.xr p (bs ++ [blk]) none) } := by
  refine h.with_draft hr ⟨by simp [Draft.states, hst], hh.count_le, ⟨?_, by simp⟩, ⟨len, ?_⟩, by simp⟩
  · intro x hx
    rcases mem_append.mp hx with hx | hx
    · exact hh.fine.1 x hx
    · rw [mem_singleton.mp hx]
      exact hf
  · rw [hb]
    simp [Draft.count, Draft.type, Draft.body, body]

section
variable (h : Sim b s)
include h

theorem sim_addXrBlock {α : Type} {c : Codec α} {a : α} {hdr : XrBlockHeader} {rest : List UInt8}
    (hok : b.addXrBlock c a = .ok b') (ht : b'.truncated = false) (blk : XrBlock)
    (he : c.encode a = XrBlockHeader.codec.encode hdr ++ rest)
    (hbytes : blk.bytes = XrBlockHeader.codec.encode (hdr.filled c.width) ++ rest) (hf : blk.Fine) :
    Sim b' (s.modify (.addXrBlock blk)) := by
  obtain ⟨d, len, hd, hh, hst, hb, -⟩ := h.enter hok (by simp)
  obtain ⟨p, bs, rfl⟩ := hh.is_xr hst
  obtain rfl := addXrBlock_ok he hok ht
  rw [Script.modify_some hd]
  refine h.add_xr_block len hh hf (mem_singleton.mp hst) rfl ?_
  simp only [hb, hbytes, append_assoc]
  rfl

theorem sim_beginXrDlrr {blk : XrDlrrBlock} (hp : blk.header = .reset XR_DLRR)
    (hok : b.beginXrDlrr blk = .ok b') (ht : b'.truncated = false) : Sim b' (s.call (.beginXrDlrr blk)) := by
  obtain ⟨d, len, hd, hh, hst, hb, hok⟩ := h.enter hok (by simp)
  obtain ⟨p, bs, rfl⟩ := hh.is_xr hst
  obtain ⟨htr, hok⟩ := not_truncated hok ht
  cases hok
  rw [addBlock_of_ok htr]
  refine h.modify hd (e := .xr p bs (some (blk, []))) rfl rfl
    ⟨by simp [Draft.states], hh.count_le, ⟨hh.fine.1, ?_⟩, ⟨len, ?_⟩, ?_⟩
  · simpa using hp
  · simp only [hb]
    simp [Draft.count, Draft.type, Draft.body, encodeAll]
  · rintro p' bs' c ⟨⟩
    simp [hb, Draft.body]

theorem sim_addXrDlrrReport {blk : XrDlrrSubblock} (hok : b.addXrDlrrReport blk = .ok b') (ht : b'.truncated = false) :
    Sim b' (s.call (.addXrDlrrReport blk)) := by
  obtain ⟨d, len, hd, hh, hst, hb, hok⟩ := h.enter hok (by simp)
  cases hok
  obtain ⟨p, bs, ⟨c, rs⟩, rfl⟩ := hh.is_dlrr hst
  rw [addBlock_of_ok ht]
  refine h.modify hd (e := .xr p bs (some (c, rs ++ [blk]))) rfl rfl ⟨by simp [Draft.states], hh.count_le, ⟨hh.fine.1, ?_⟩, ⟨len, ?_⟩, ?_⟩
  · simpa using hh.fine.2
  · simp only [hb]
    simp [Draft.count, Draft.type, Draft.body, encodeAll]
  · rintro p' bs' c ⟨⟩
    exact hh.block _ _ _ rfl

theorem sim_endXrDlrr (htb : b.truncated = false) (hok : b.endXrDlrr = .ok b') : Sim b' (s.call .endXrDlrr) := by
  obtain ⟨d, len, hd, hh, hst, hb, hok⟩ := h.enter hok (by simp)
  obtain ⟨p, bs, ⟨c, rs⟩, rfl⟩ := hh.is_dlrr hst
  have hpos := hh.block _ _ _ rfl
  dsimp only at hok
  rw [if_neg (by rw [htb]; simp)] at hok
  obtain ⟨bytes, hpatch, hret⟩ := bind_eq_ok.mp hok
  cases hret
  -- the block header lies behind the packet header and the finished blocks
  have hsplit : b.curPkt = (PacketHeader.codec.encode ⟨countByte 0, RTCP_XR, len⟩ ++
      (xr p bs).body) ++ (XrBlockHeader.codec.encode c.header ++ XrDlrrSubblock.codec.encodeAll rs) := by
    rw [hb, append_assoc]
    rfl
  have hl : b.curXrBlockHeader = (PacketHeader.codec.encode ⟨countByte 0, RTCP_XR, len⟩ ++ (xr p bs).body).length := by
    rw [hpos, length_append, PacketHeader.codec.encode_length, PacketHeader.codec_width]
  have hsize : b.curPkt.length - b.curXrBlockHeader = 4 + rs.length * 12 := by
    have hsum := congrArg List.length hsplit
    rw [length_append, ← hl, length_append,
      XrBlockHeader.codec.encode_length, encodeAll_length, XrBlockHeader.codec_width,
      XrDlrrSubblock.codec_width] at hsum
    omega
  rw [hsize, hl, hsplit] at hpatch
  obtain ⟨h', hf, rfl⟩ := patchAt_ok hpatch
  obtain ⟨rfl, hle⟩ := XrBlockHeader.setLenBytes_ok hf
  show Sim _ (s.modify .endDlrr)
  rw [Script.modify_some hd]
  have hx : Holds { b with state := .xrHead, curPkt :=
      PacketHeader.codec.encode ⟨countByte 0, RTCP_XR, len⟩ ++ (xr p bs).body }
      (.xr p bs none) :=
    ⟨by simp [Draft.states], hh.count_le, ⟨hh.fine.1, by simp⟩, ⟨len, by
      simp [Draft.body, Draft.count, Draft.type]⟩, by simp⟩
  have hxs : Sim { b with state := .xrHead, curPkt :=
      PacketHeader.codec.encode ⟨countByte 0, RTCP_XR, len⟩ ++ (xr p bs).body }
      { s with draft := some (.xr p bs none) } := h.with_draft rfl hx
  refine hxs.add_xr_block len hx ⟨hh.fine.2 _ rfl, hle⟩ rfl rfl ?_
  simp only [Draft.body, Option.elim_none, append_nil, append_assoc]
  rfl

theorem sim_end {states : List Builder.State} (ht : b.truncated = false)
    (hne : Builder.State.top ∉ states) (hok : b.endFrom states = .ok b') :
    ∃ d, Holds b d ∧ b.state ∈ states ∧
      ∀ e : Described, d.close = some e → d.count = e.count → d.type = e.type →
        d.body = e.body → e.Fine → Sim b' s.finish := by
  obtain ⟨d, len, hd, hh, hst, -, -⟩ := h.enter hok hne
  refine ⟨d, hh, hst, fun e hcl hc hty hb hf => ?_⟩
  rw [Script.finish_some hd hcl]
  exact h.finish hh ht hc hty hb hf hok

theorem sim_call {c : Call} (hp : c.Plain) (ht : b.truncated = false)
    (hok : b.call c = .ok b') (ht' : b'.truncated = false) : Sim b' (s.call c) := by
  cases c with
  | beginSr sr => exact sim_beginSr h ht' hp hok
  | addSrReport blk => exact sim_addSrReport h ht' hok
  | endSr =>
    obtain ⟨d, hh, hst, hfin⟩ := sim_end h ht (by simp) hok
    obtain ⟨p, bs, rfl⟩ := hh.is_sr hst
    exact hfin (.sr p bs) rfl rfl rfl rfl trivial
  | beginRr rr => exact sim_beginRr h ht' hp hok
  | addRrReport blk => exact sim_addRrReport h ht' hok
  | endRr =>
    obtain ⟨d, hh, hst, hfin⟩ := sim_end h ht (by simp) hok
    obtain ⟨p, bs, rfl⟩ := hh.is_rr hst
    exact hfin (.rr p bs) rfl rfl rfl rfl trivial
  | beginSdes => exact sim_beginSdes h ht' hok
  | beginSdesChunk chunk => exact sim_beginSdesChunk h ht' hok
  | addSdesItem item => exact sim_addSdesItem h ht' hp hok
  | endSdesChunk => exact sim_endSdesChunk h hok ht'
  | endSdes =>
    obtain ⟨d, hh, hst, hfin⟩ := sim_end h ht (by simp) hok
    obtain ⟨cs, rfl⟩ := hh.is_sdes hst
    exact hfin (.sdes cs) rfl (by simp [Draft.count, Described.count]) rfl (by simp [Draft.body]) hh.fine.1
  | beginBye => exact sim_beginBye h ht' hok
  | addByeSsrc ssrc => exact sim_addByeSsrc h hok ht'
  | addByeReason reason => exact sim_addByeReason h hok ht'
  | endBye =>
    obtain ⟨d, hh, hst, hfin⟩ := sim_end h ht (by simp) hok
    obtain ⟨ssrcs, r, rfl, -⟩ := hh.is_bye_end hst
    exact hfin (.bye ssrcs r) rfl rfl rfl rfl hh.fine
  | beginXr xr => exact sim_beginXr h ht' hp hok
  | addXrRrtr blk =>
    exact sim_addXrBlock h hok ht' (.rrtr blk) rfl rfl hp
  | beginXrDlrr blk => exact sim_beginXrDlrr h hp hok ht'
  | addXrDlrrReport blk => exact sim_addXrDlrrReport h hok ht'
  | endXrDlrr => exact sim_endXrDlrr h ht hok
  | addXrMeasurementInfo blk =>
    exact sim_addXrBlock h hok ht' (.measurementInfo blk) rfl rfl hp
  | addXrDelayMetrics blk =>
    exact sim_addXrBlock h hok ht' (.delayMetrics blk) rfl rfl hp
  | addXrQueueMetrics blk =>
    exact sim_addXrBlock h hok ht' (.queueMetrics blk) rfl rfl hp
  | endXr =>
    obtain ⟨d, hh, hst, hfin⟩ := sim_end h ht (by simp) hok
    obtain ⟨p, bs, rfl⟩ := hh.is_xr hst
    exact hfin (.xr p bs) rfl rfl rfl (by simp [Draft.body]) hh.fine.1
  | addPadding n => exact absurd hp id

end

theorem sim_run : ∀ {calls : List Call} {b : Builder} {s : Script}, Sim b s →
    (∀ c ∈ calls, c.Plain) → b.run calls = .ok b' → b'.truncated = false →
    Sim b' (calls.foldl Script.call s) := by
  intro calls
  induction calls with
  | nil => rintro b s h - ⟨⟩ -; exact h
  | cons c cs ih =>
    intro b s h hp hok ht
    have ht0 := run_not_truncated hok ht
    obtain ⟨b1, hcall, hrun⟩ := bind_eq_ok.mp hok
    have ht1 := run_not_truncated hrun ht
    exact ih (sim_call h (hp c (by simp)) ht0 hcall ht1) (fun x hx => hp x (by simp [hx])) hrun ht

theorem run_bytes {config : Config} {capacity : Nat} {calls : List Call}
    (hp : ∀ c ∈ calls, c.Plain) (hok : (new config capacity).run calls = .ok b) (ht : b.truncated = false) :
    b.result = (described calls).flatMap bytes ∧
      ∀ d ∈ described calls, d.WellFormed := by
  have hnew : Sim (new config capacity) ⟨[], none⟩ := ⟨rfl, by simp, rfl⟩
  have hsim := sim_run hnew hp hok ht
  exact ⟨hsim.result, hsim.wf⟩

end

end Roc.Rtcp
