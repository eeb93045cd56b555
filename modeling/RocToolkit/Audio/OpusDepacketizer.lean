import RocToolkit.Audio.Frame

/-!
# RocToolkit.Audio.OpusDepacketizer

`audio::OpusDepacketizer` (roc_audio/target_opus/opus_depacketizer.cpp) and the part of
`audio::OpusDecoder` it calls. The depacketizer turns the packets a reader hands over into one
continuous stream of samples: it keeps a buffer with the current chunk, and when the chunk is used
up it makes the next one from a packet, from forward error correction, from concealment or from
silence.

libopus is a parameter (`Libopus`): a state, the duration it reads off a payload, and what
`opus_decode_float` writes. The reader is the list of what its `read` calls will return. The calls
the depacketizer makes to the decoder are kept in `calls`, with the stream position they were made
at.
-/

namespace Roc.Audio

/-- libopus: `δ` is its decoder state, `ρ` the payloads, `σ` the samples. -/
structure Libopus (δ ρ σ : Type) where
  /-- `opus_packet_get_nb_samples`. -/
  nbSamples : ρ → Int
  /-- `opus_decode_float` with its `frame_size` and `decode_fec` arguments; `none` is a negative
  result. -/
  decodeFloat : δ → Option ρ → Nat → Bool → Option (List σ) × δ

/-- `supported_frame_size`. -/
def supportedFrameSize (n : Nat) : Bool := n == 120 || n == 240 || n == 480 || n == 960 || n == 1920 || n == 2880

/-- `OpusMaxFrameSamplesPerChan`. -/
def opusMaxFrameSamplesPerChan : Nat := 2880

/-- A call of `payload_decoder_`, and `stream_ts_` at that moment. -/
inductive DecoderCall (ρ : Type) where
  | decode (packet : Packet ρ) (streamTs : StreamTimestamp)
  | decodeFec (packet : Packet ρ) (numSamples : Nat) (streamTs : StreamTimestamp)
  | decodeMissing (numSamples : Nat) (streamTs : StreamTimestamp)
deriving DecidableEq, Repr

/-- `OpusDepacketizer::ChunkSource`. -/
inductive ChunkSource where
  | none
  | packet
  | conceal
  | synthetic
deriving DecidableEq, Repr

structure OpusDepacketizer (δ ρ σ : Type) where
  lib : Libopus δ ρ σ
  libState : δ
  filler : Filler σ
  sampleSpec : SampleSpec
  /-- What the calls of `reader_.read` return; `none` is a status other than `StatusOK`. -/
  reader : List (Option (Packet ρ))
  decodedBuffer : List σ
  nextPacket : Option (Packet ρ) := none
  streamTs : StreamTimestamp := 0
  nextCaptureTs : Int := 0
  validCaptureTs : Bool := false
  zeroSamples : StreamTimestamp := 0
  missingSamples : StreamTimestamp := 0
  packetSamples : StreamTimestamp := 0
  lastPacketDuration : StreamTimestamp := 0
  chunkOffset : Nat := 0
  chunkSize : Nat := 0
  chunkSource : ChunkSource := .none
  beep : Bool
  firstPacket : Bool := true
  calls : List (DecoderCall ρ) := []

namespace OpusDepacketizer

variable {δ ρ σ : Type}

def new (lib : Libopus δ ρ σ) (libState : δ) (filler : Filler σ) (spec : SampleSpec) (beep : Bool)
    (reader : List (Option (Packet ρ))) : OpusDepacketizer δ ρ σ where
  lib := lib
  libState := libState
  filler := filler
  sampleSpec := spec
  reader := reader
  decodedBuffer := List.replicate (opusMaxFrameSamplesPerChan * spec.numChannels) filler.zero
  beep := beep

/-- Writes at the front of `decoded_buffer_`. -/
def writeBuffer (d : OpusDepacketizer δ ρ σ) (samples : List σ) : OpusDepacketizer δ ρ σ :=
  { d with decodedBuffer := samples ++ d.decodedBuffer.drop samples.length }

/-- `write_beep` or `write_zeros` of `n` samples. -/
def filling (d : OpusDepacketizer δ ρ σ) (n : Nat) : List σ :=
  if d.beep then (List.range n).map d.filler.beep else List.replicate n d.filler.zero

/-- `requested_samples`: `n`, or the payload's own duration if `n = 0`. -/
def requestedSamples (d : OpusDepacketizer δ ρ σ) (payload : Option ρ) (n : Nat) : Nat :=
  if n = 0 then payload.elim 0 fun p => (d.lib.nbSamples p).toNat else n

/-- `OpusDecoder::decode_imp_` into `decoded_buffer_`: the number of samples per channel decoded,
`none` when it returns false. Without a payload and a duration `requested_samples` is 0, which is
no frame size. -/
def decodeImp (d : OpusDepacketizer δ ρ σ) (payload : Option ρ) (n : Nat) (fec : Bool) :
    Option Nat × OpusDepacketizer δ ρ σ :=
  let requested := d.requestedSamples payload n
  if !supportedFrameSize requested then (none, d)
  else if d.decodedBuffer.length < requested * d.sampleSpec.numChannels then (none, d)
  else
    match d.lib.decodeFloat d.libState payload requested fec with
    | (none, s) => (none, { d with libState := s })
    | (some samples, s) =>
      (some (samples.length / d.sampleSpec.numChannels), { d.writeBuffer samples with libState := s })

def record (d : OpusDepacketizer δ ρ σ) (call : DecoderCall ρ) : OpusDepacketizer δ ρ σ :=
  { d with calls := d.calls ++ [call] }

/-- `OpusDecoder::decode`. -/
def decode (d : OpusDepacketizer δ ρ σ) (packet : Packet ρ) : Option Nat × OpusDepacketizer δ ρ σ :=
  (d.record (.decode packet d.streamTs)).decodeImp (some packet.payload) 0 false

/-- `OpusDecoder::decode_fec`. -/
def decodeFec (d : OpusDepacketizer δ ρ σ) (packet : Packet ρ) (n : Nat) : Option Nat × OpusDepacketizer δ ρ σ :=
  (d.record (.decodeFec packet n d.streamTs)).decodeImp (some packet.payload) n true

/-- `OpusDecoder::decode_missing`. -/
def decodeMissing (d : OpusDepacketizer δ ρ σ) (n : Nat) : Option Nat × OpusDepacketizer δ ρ σ :=
  (d.record (.decodeMissing n d.streamTs)).decodeImp none n false

/-- `decode_synthetic_chunk_`. -/
def decodeSyntheticChunk (d : OpusDepacketizer δ ρ σ) (n : Nat) : Bool × OpusDepacketizer δ ρ σ :=
  if n = 0 || decide (d.decodedBuffer.length < n * d.sampleSpec.numChannels) then (false, d)
  else
    (true, { d.writeBuffer (d.filling (n * d.sampleSpec.numChannels)) with
      chunkOffset := 0
      chunkSize := n * d.sampleSpec.numChannels
      chunkSource := .synthetic
      lastPacketDuration := BitVec.ofNat 32 n })

def gap (d : OpusDepacketizer δ ρ σ) : StreamTimestamp :=
  match d.nextPacket with
  | some packet => BitVec.ofInt 32 (streamTimestampDiff packet.streamTimestamp d.streamTs)
  | none => 0

/-- How many samples `decode_missing_chunk_` tries to make up. -/
def concealSamples (d : OpusDepacketizer δ ρ σ) : Nat :=
  match d.nextPacket with
  | some packet =>
    if d.gap ≠ 0 then
      let pref := if d.lastPacketDuration ≠ 0 then d.lastPacketDuration else packet.duration
      min d.gap.toNat pref.toNat
    else d.lastPacketDuration.toNat
  | none => d.lastPacketDuration.toNat

/-- The decoder call of `decode_missing_chunk_`. -/
def conceal (d : OpusDepacketizer δ ρ σ) (n : Nat) : Option Nat × OpusDepacketizer δ ρ σ :=
  match d.nextPacket with
  | some packet => if n = packet.duration.toNat then d.decodeFec packet n else d.decodeMissing n
  | none => d.decodeMissing n

/-- The capture time of a concealed chunk of `decoded` samples: it ends where the packet in hand
starts. -/
def captureConcealed (d : OpusDepacketizer δ ρ σ) (decoded : Nat) : OpusDepacketizer δ ρ σ :=
  match d.nextPacket with
  | some packet =>
    if packet.captureTimestamp ≠ 0 then
      let concealNs := d.sampleSpec.samplesPerChanToNs decoded
      let captureTs := if concealNs < packet.captureTimestamp then packet.captureTimestamp - concealNs else 0
      { d with
        nextCaptureTs := captureTs
        validCaptureTs := d.validCaptureTs || decide (captureTs ≠ 0) }
    else d
  | none => d

/-- `decode_missing_chunk_`. -/
def decodeMissingChunk (d : OpusDepacketizer δ ρ σ) : Bool × OpusDepacketizer δ ρ σ :=
  let n := d.concealSamples
  if n = 0 || !supportedFrameSize n then d.decodeSyntheticChunk n
  else
    match d.conceal n with
    | (none, d) => d.decodeSyntheticChunk n
    | (some 0, d) => d.decodeSyntheticChunk n
    | (some decoded, d) =>
      (true, { d.captureConcealed decoded with
        chunkOffset := 0
        chunkSize := decoded * d.sampleSpec.numChannels
        chunkSource := .conceal
        lastPacketDuration := BitVec.ofNat 32 decoded })

/-- The samples of the packet in hand that lie before the stream position: the difference cast to
`size_t`. -/
def skipSamples (d : OpusDepacketizer δ ρ σ) (packet : Packet ρ) : Nat :=
  if streamTimestampLt packet.streamTimestamp d.streamTs then
    (streamTimestampDiff d.streamTs packet.streamTimestamp % 2 ^ 64).toNat
  else 0

/-- The capture time of a packet from its sample `skip` on. -/
def capturePacket (d : OpusDepacketizer δ ρ σ) (packet : Packet ρ) (skip : Nat) : OpusDepacketizer δ ρ σ :=
  if packet.captureTimestamp ≠ 0 then
    { d with
      nextCaptureTs := packet.captureTimestamp + d.sampleSpec.samplesPerChanToNs skip
      validCaptureTs := true }
  else d

/-- `decode_packet_chunk_`, with the packet in hand. -/
def decodePacketChunk (d : OpusDepacketizer δ ρ σ) (packet : Packet ρ) : Bool × OpusDepacketizer δ ρ σ :=
  match d.decode packet with
  | (none, d) => decodeMissingChunk { d with nextPacket := none }
  | (some decoded, d) =>
    let skip := d.skipSamples packet
    if skip ≠ 0 && decide (decoded ≤ skip) then (false, { d with nextPacket := none })
    else
      (true, { d.capturePacket packet skip with
        chunkOffset := skip * d.sampleSpec.numChannels
        chunkSize := decoded * d.sampleSpec.numChannels
        chunkSource := .packet
        lastPacketDuration := BitVec.ofNat 32 decoded
        nextPacket := none })

/-- The `while` loop of `fetch_packet_`: the first packet that does not end before the stream
position, what the reader has left, and how many packets were dropped on the way. -/
def fetchLoop (firstPacket : Bool) (streamTs : StreamTimestamp) :
    List (Option (Packet ρ)) → Option (Packet ρ) × List (Option (Packet ρ)) × Nat
  | [] => (none, [], 0)
  | none :: rest => (none, rest, 0)
  | some packet :: rest =>
    if firstPacket || streamTimestampLt streamTs (packet.streamTimestamp + packet.duration) then
      (some packet, rest, 0)
    else
      let (found, left, dropped) := fetchLoop firstPacket streamTs rest
      (found, left, dropped + 1)

/-- `fetch_packet_`; whether it found a packet is whether there is one in hand now. -/
def fetchPacket (d : OpusDepacketizer δ ρ σ) (info : FrameInfo) : OpusDepacketizer δ ρ σ × FrameInfo :=
  match d.nextPacket with
  | some _ => (d, info)
  | none =>
    let (found, left, dropped) := fetchLoop d.firstPacket d.streamTs d.reader
    ({ d with nextPacket := found, reader := left },
      { info with numDroppedPackets := info.numDroppedPackets + dropped })

def startStream (d : OpusDepacketizer δ ρ σ) (packet : Packet ρ) : OpusDepacketizer δ ρ σ :=
  if d.firstPacket then { d with streamTs := packet.streamTimestamp, firstPacket := false } else d

/-- `ensure_chunk_` once the last chunk is used up and a packet was looked for. -/
def nextChunk (d : OpusDepacketizer δ ρ σ) : Bool × OpusDepacketizer δ ρ σ :=
  match d.nextPacket with
  | none =>
    if d.firstPacket || d.lastPacketDuration = 0 then (false, d)
    else
      d.decodeSyntheticChunk (if supportedFrameSize d.lastPacketDuration.toNat then d.lastPacketDuration.toNat else 0)
  | some packet =>
    let d := d.startStream packet
    if !streamTimestampLt d.streamTs packet.streamTimestamp then d.decodePacketChunk packet
    else d.decodeMissingChunk

/-- `ensure_chunk_`. -/
def ensureChunk (d : OpusDepacketizer δ ρ σ) (info : FrameInfo) : Bool × OpusDepacketizer δ ρ σ × FrameInfo :=
  if d.chunkOffset < d.chunkSize then (true, d, info)
  else
    let (d, info) := fetchPacket { d with chunkOffset := 0, chunkSize := 0, chunkSource := .none } info
    let (ok, d) := d.nextChunk
    (ok, d, info)

def stampInfo (d : OpusDepacketizer δ ρ σ) (info : FrameInfo) : FrameInfo :=
  if info.captureTs = 0 && d.validCaptureTs then
    { info with captureTs := d.nextCaptureTs - d.sampleSpec.samplesOverallToNs info.numFilledSamples }
  else info

/-- Moves the capture time on by `n` samples of all channels. -/
def advanceCapture (d : OpusDepacketizer δ ρ σ) (n : Nat) : OpusDepacketizer δ ρ σ :=
  if d.validCaptureTs then
    { d with nextCaptureTs := d.nextCaptureTs + d.sampleSpec.samplesOverallToNs n }
  else d

/-- The branch of `read_samples_` without a chunk: the rest of the frame is filled. -/
def fillRest (d : OpusDepacketizer δ ρ σ) (info : FrameInfo) (left : Nat) :
    List σ × OpusDepacketizer δ ρ σ × FrameInfo :=
  let n := left / d.sampleSpec.numChannels
  let ticks := BitVec.ofNat 32 n
  let total := n * d.sampleSpec.numChannels
  let info := d.stampInfo info
  let samples := d.filling total
  let d := d.advanceCapture total
  let d := if d.firstPacket then { d with zeroSamples := d.zeroSamples + ticks }
    else { d with missingSamples := d.missingSamples + ticks }
  (samples, { d with streamTs := d.streamTs + ticks },
    { info with numFilledSamples := info.numFilledSamples + total })

/-- The branch of `read_samples_` that copies out of the chunk. -/
def copyChunk (d : OpusDepacketizer δ ρ σ) (info : FrameInfo) (left : Nat) :
    List σ × OpusDepacketizer δ ρ σ × FrameInfo :=
  let toCopy := min left (d.chunkSize - d.chunkOffset)
  let samples := (d.decodedBuffer.drop d.chunkOffset).take toCopy
  let ticks := BitVec.ofNat 32 (toCopy / d.sampleSpec.numChannels)
  let info := d.stampInfo info
  let d := d.advanceCapture toCopy
  let info := if d.chunkSource = .packet then
      { info with numDecodedSamples := info.numDecodedSamples + toCopy }
    else info
  let d := if d.chunkSource = .packet then { d with packetSamples := d.packetSamples + ticks }
    else if d.firstPacket then { d with zeroSamples := d.zeroSamples + ticks }
    else { d with missingSamples := d.missingSamples + ticks }
  let d := { d with chunkOffset := d.chunkOffset + toCopy, streamTs := d.streamTs + ticks }
  let d := if d.chunkOffset = d.chunkSize then
      { d with chunkOffset := 0, chunkSize := 0, chunkSource := .none }
    else d
  (samples, d, { info with numFilledSamples := info.numFilledSamples + toCopy })

/-- `read_samples_`: the samples written to a frame that has room for `left` more. -/
def readSamples (d : OpusDepacketizer δ ρ σ) (info : FrameInfo) (left : Nat) :
    List σ × OpusDepacketizer δ ρ σ × FrameInfo :=
  match d.ensureChunk info with
  | (true, d, info) => d.copyChunk info left
  | (false, d, info) => d.fillRest info left

/-- The `while` loop of `read_frame_`, at most `fuel` rounds of it. `buff_ptr` is
`n_filled_samples` behind the start of the frame. -/
def readLoop (total : Nat) : Nat → OpusDepacketizer δ ρ σ → FrameInfo → List σ × OpusDepacketizer δ ρ σ × FrameInfo
  | 0, d, info => ([], d, info)
  | fuel + 1, d, info =>
    if total ≤ info.numFilledSamples then ([], d, info)
    else
      let (samples, d, info) := d.readSamples info (total - info.numFilledSamples)
      let (more, d, info) := readLoop total fuel d info
      (samples ++ more, d, info)

/-- `set_frame_props_` of a frame that is not empty: an empty one has no duration, and the code panics. -/
def frameOf (d : OpusDepacketizer δ ρ σ) (samples : List σ) (info : FrameInfo) (size : Nat) : Frame σ where
  samples := samples
  notBlank := info.numDecodedSamples != 0
  notComplete := info.numDecodedSamples < size
  packetDrops := info.numDroppedPackets != 0
  duration := size / d.sampleSpec.numChannels
  captureTimestamp := if 0 < info.captureTs then some info.captureTs else none

/-- A bound for the rounds that a frame of `total` samples takes: each round writes a sample, fills the frame or uses
up a packet. That it is one is not proved here. -/
def frameRounds (d : OpusDepacketizer δ ρ σ) (total : Nat) : Nat := total + d.reader.length + 2

/-- `read_frame_` of a frame of `size` samples per channel (a size that is not a multiple of the
number of channels panics, so frames are counted per channel here). -/
def readFrame (d : OpusDepacketizer δ ρ σ) (size : Nat) : Frame σ × OpusDepacketizer δ ρ σ :=
  let total := size * d.sampleSpec.numChannels
  let (samples, d, info) := readLoop total (d.frameRounds total) d {}
  (d.frameOf samples info total, d)

/-- `read` of one frame after the other. -/
def readFrames : List Nat → OpusDepacketizer δ ρ σ → List (Frame σ) × OpusDepacketizer δ ρ σ
  | [], d => ([], d)
  | size :: rest, d =>
    let (frame, d) := d.readFrame size
    let (frames, d) := readFrames rest d
    (frame :: frames, d)

end OpusDepacketizer

end Roc.Audio
