import RocToolkit.Audio.PcmDecoder

/-!
# RocToolkit.Audio.Depacketizer

`audio::Depacketizer` (roc_audio/depacketizer.cpp) over `PcmDecoder`: it turns the packets that a reader hands
over into one continuous stream of samples, with silence (or a beep) where there are none.

Frames consist of whole ticks (`read_frame_` panics on others), so everything is counted in ticks here where
the source counts samples of all channels. The reader is the list of what its `read` calls will return. The
two assertions of the source about positions are faults of the model.
-/

namespace Roc.Audio

abbrev PcmPacket := Packet (List UInt8)

structure Depacketizer (σ : Type) where
  format : PcmFormat σ
  filler : Filler σ
  sampleSpec : SampleSpec
  beep : Bool
  /-- What the calls of `reader_.read` return; `none` is a status other than `StatusOK`. -/
  reader : List (Option PcmPacket)
  decoder : PcmDecoder := {}
  packet : Option PcmPacket := none
  streamTs : StreamTimestamp := 0
  nextCaptureTs : Int := 0
  validCaptureTs : Bool := false
  zeroSamples : StreamTimestamp := 0
  missingSamples : StreamTimestamp := 0
  packetSamples : StreamTimestamp := 0
  firstPacket : Bool := true

namespace Depacketizer

variable {σ : Type}

def channels (d : Depacketizer σ) : Nat := d.sampleSpec.numChannels

/-- `write_beep` or `write_zeros` of `n` ticks; the beep begins anew with each call. -/
def filling (d : Depacketizer σ) (n : Nat) : List (Tick σ) := (List.range n).map fun i =>
    (List.range d.channels).map fun c =>
      if d.beep then d.filler.beep (i * d.channels + c) else d.filler.zero

/-- `read_missing_samples_`. -/
def readMissingSamples (d : Depacketizer σ) (n : Nat) : List (Tick σ) × Depacketizer σ :=
  let ticks := BitVec.ofNat 32 n
  (d.filling n, if d.firstPacket then { d with streamTs := d.streamTs + ticks, zeroSamples := d.zeroSamples + ticks }
    else { d with streamTs := d.streamTs + ticks, missingSamples := d.missingSamples + ticks })

/-- `read_packet_samples_`. -/
def readPacketSamples (d : Depacketizer σ) (requested : Nat) : Except Fault (List (Tick σ) × Depacketizer σ) := do
  let (samples, decoder) ← d.decoder.read d.format d.channels requested
  let ticks := BitVec.ofNat 32 samples.length
  let d :=
    { d with
      decoder := decoder
      streamTs := d.streamTs + ticks
      packetSamples := d.packetSamples + ticks }
  if samples.length < requested then
    let decoder ← decoder.finish
    return (samples, { d with decoder, packet := none })
  return (samples, d)

/-- The `while` loop of `update_packet_`: the first packet that does not end before the stream position, with
the decoder in it, what the reader has left, and how many packets were dropped on the way. -/
def fetchLoop (format : PcmFormat σ) (channels : Nat) (firstPacket : Bool) (streamTs : StreamTimestamp) :
    List (Option PcmPacket) → PcmDecoder → Except Fault (Option PcmPacket × List (Option PcmPacket) × PcmDecoder × Nat)
  | [], dec => .ok (none, [], dec, 0)
  | none :: rest, dec => .ok (none, rest, dec, 0)
  | some packet :: rest, dec => do
    let dec ← dec.begin format channels packet.streamTimestamp packet.payload
    if firstPacket || streamTimestampLt streamTs (dec.streamPos + dec.streamAvail) then
      return (some packet, rest, dec, 0)
    let dec ← dec.finish
    let (found, left, dec, dropped) ← fetchLoop format channels firstPacket streamTs rest dec
    return (found, left, dec, dropped + 1)

def skipLate (d : Depacketizer σ) (pktTimestamp : StreamTimestamp) : Except Fault (Depacketizer σ) := do
  if !streamTimestampLt pktTimestamp d.streamTs then return d
  -- the difference cast to `size_t`
  let diffSamples := (streamTimestampDiff d.streamTs pktTimestamp % 2 ^ 64).toNat
  let d := if d.validCaptureTs then
      { d with nextCaptureTs := d.nextCaptureTs + d.sampleSpec.samplesPerChanToNs diffSamples }
    else d
  let (shifted, decoder) ← d.decoder.shift d.format d.channels diffSamples
  if shifted ≠ diffSamples then throw (.panic "depacketizer: can't shift packet")
  return { d with decoder }

/-- The rest of `update_packet_` for a packet that was found. -/
def startPacket (d : Depacketizer σ) (packet : PcmPacket) : Except Fault (Depacketizer σ) :=
  let d :=
    { d with
      packet := some packet
      nextCaptureTs := packet.captureTimestamp
      validCaptureTs := d.validCaptureTs || decide (packet.captureTimestamp ≠ 0) }
  let pktTimestamp := d.decoder.streamPos
  let d := if d.firstPacket then { d with streamTs := pktTimestamp, firstPacket := false } else d
  d.skipLate pktTimestamp

/-- `update_packet_`. -/
def updatePacket (d : Depacketizer σ) (info : FrameInfo) : Except Fault (Depacketizer σ × FrameInfo) := do
  if d.packet.isSome then return (d, info)
  let (found, left, decoder, dropped) ← fetchLoop d.format d.channels d.firstPacket d.streamTs d.reader d.decoder
  let info := { info with numDroppedPackets := info.numDroppedPackets + dropped }
  let d := { d with reader := left, decoder }
  match found with
  | none => return (d, info)
  | some packet => return (← d.startPacket packet, info)

def stampInfo (d : Depacketizer σ) (info : FrameInfo) : FrameInfo :=
  if info.captureTs = 0 && d.validCaptureTs then
    { info with
      captureTs := d.nextCaptureTs - d.sampleSpec.samplesPerChanToNs info.numFilledSamples }
  else info

def advanceCapture (d : Depacketizer σ) (n : Nat) : Depacketizer σ :=
  if d.validCaptureTs then { d with nextCaptureTs := d.nextCaptureTs + d.sampleSpec.samplesPerChanToNs n }
  else d

/-- The part of `read_samples_` that fills the gap before the packet in hand. -/
def fillGap (d : Depacketizer σ) (info : FrameInfo) (left : Nat) :
    Except Fault (List (Tick σ) × Depacketizer σ × FrameInfo) := do
  let nextTimestamp := d.decoder.streamPos
  if d.streamTs = nextTimestamp then return ([], d, info)
  if !streamTimestampLt d.streamTs nextTimestamp then
    throw (.panic "!packet::stream_timestamp_lt(stream_ts_, next_timestamp)")
  let n := min (streamTimestampDiff nextTimestamp d.streamTs).toNat left
  let (samples, d) := d.readMissingSamples n
  let info := { info with numFilledSamples := info.numFilledSamples + n }
  return (samples, d, d.stampInfo info)

/-- The part of `read_samples_` that decodes the packet in hand. -/
def playPacket (d : Depacketizer σ) (info : FrameInfo) (left : Nat) :
    Except Fault (List (Tick σ) × Depacketizer σ × FrameInfo) := do
  if left = 0 then return ([], d, info)
  let (samples, d) ← d.readPacketSamples left
  let n := samples.length
  let info := { info with numDecodedSamples := info.numDecodedSamples + n }
  let info := if n ≠ 0 then d.stampInfo info else info
  return (samples, d.advanceCapture n, { info with numFilledSamples := info.numFilledSamples + n })

/-- The branch of `read_samples_` without a packet. -/
def fillRest (d : Depacketizer σ) (info : FrameInfo) (left : Nat) : List (Tick σ) × Depacketizer σ × FrameInfo :=
  let info := d.stampInfo info
  let (samples, d) := (d.advanceCapture left).readMissingSamples left
  (samples, d, { info with numFilledSamples := info.numFilledSamples + left })

/-- `read_samples_`, for a frame that has room for `left` more ticks. -/
def readSamples (d : Depacketizer σ) (info : FrameInfo) (left : Nat) :
    Except Fault (List (Tick σ) × Depacketizer σ × FrameInfo) := do
  let (d, info) ← d.updatePacket info
  if d.packet.isSome then
    let (silence, d, info) ← d.fillGap info left
    let (samples, d, info) ← d.playPacket info (left - silence.length)
    return (silence ++ samples, d, info)
  else return d.fillRest info left

/-- The `while` loop of `read_frame_`, at most `fuel` rounds of it. -/
def readLoop (size : Nat) : Nat → Depacketizer σ → FrameInfo → Except Fault (List (Tick σ) × Depacketizer σ × FrameInfo)
  | 0, _, _ => .error .outOfFuel
  | fuel + 1, d, info => do
    if size ≤ info.numFilledSamples then return ([], d, info)
    let (samples, d, info) ← d.readSamples info (size - info.numFilledSamples)
    let (more, d, info) ← readLoop size fuel d info
    return (samples ++ more, d, info)

/-- The frame that `set_frame_props_` makes; its duration is a `stream_timestamp_t`. -/
def frameOf (samples : List (Tick σ)) (info : FrameInfo) (size : Nat) : Frame (Tick σ) where
  samples := samples
  notBlank := info.numDecodedSamples != 0
  notComplete := info.numDecodedSamples < size
  packetDrops := info.numDroppedPackets != 0
  duration := size % 4294967296
  captureTimestamp := if 0 < info.captureTs then some info.captureTs else none

/-- `set_frame_props_`; `Frame::set_duration` refuses a zero. -/
def setFrameProps (samples : List (Tick σ)) (info : FrameInfo) (size : Nat) : Except Fault (Frame (Tick σ)) :=
  if (frameOf samples info size).duration = 0 then .error (.panic "frame: invalid zero duration")
  else .ok (frameOf samples info size)

def frameRounds (d : Depacketizer σ) (size : Nat) : Nat := size + 2 * d.reader.length + 2

/-- `read_frame_` of a frame of `size` ticks. -/
def readFrame (d : Depacketizer σ) (size : Nat) : Except Fault (Frame (Tick σ) × Depacketizer σ) := do
  let (samples, d, info) ← readLoop size (d.frameRounds size) d {}
  return (← setFrameProps samples info size, d)

/-- `read` of one frame after the other. -/
def readFrames : List Nat → Depacketizer σ → Except Fault (List (Frame (Tick σ)) × Depacketizer σ)
  | [], d => .ok ([], d)
  | size :: rest, d => do
    let (frame, d) ← d.readFrame size
    let (frames, d) ← readFrames rest d
    return (frame :: frames, d)

end Depacketizer
end Roc.Audio
