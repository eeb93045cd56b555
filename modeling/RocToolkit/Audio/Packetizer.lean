import RocToolkit.Audio.PcmDecoder

/-!
# RocToolkit.Audio.Packetizer

The sending side of a PCM stream: `audio::Packetizer` (roc_audio/packetizer.cpp) over `PcmEncoder` and
`rtp::Sequencer`. Frames of any size are cut into packets of a fixed number of ticks; `flush` ends the last
packet early and cuts the part of its payload off that was not written.

The encoder writes into the payload of the packet in hand, so the bytes stand with the encoder between `begin`
and `end`. Frames consist of whole ticks (`write` panics on others), and a frame carries the proof of it.
-/

namespace Roc.Audio

/-- A format with its encoder. What is packed is read back, and samples at different bits do not disturb each
other. -/
structure PcmCodec (σ : Type) extends PcmFormat σ where
  pack : List UInt8 → Nat → σ → List UInt8
  length_pack : ∀ data off v, (pack data off v).length = data.length
  unpack_pack : ∀ {data off} (v), off + bitWidth ≤ data.length * 8 → unpack (pack data off v) off = v
  unpack_pack_of_disjoint : ∀ {data off off'} (v), off' + bitWidth ≤ off ∨ off + bitWidth ≤ off' →
    unpack (pack data off v) off' = unpack data off'
  unpack_take : ∀ {data n off}, off + bitWidth ≤ n * 8 → unpack (data.take n) off = unpack data off

namespace PcmCodec

variable {σ : Type} (codec : PcmCodec σ)

/-- The mapping function of `PcmMapper::map`: samples one after the other. -/
def packAll (data : List UInt8) (off : Nat) : List σ → List UInt8
  | [] => data
  | v :: rest => packAll (codec.pack data off v) (off + codec.bitWidth) rest

/-- `encoded_byte_count` of `n` ticks. -/
def encodedByteCount (channels n : Nat) : Nat := (n * channels * codec.bitWidth + 7) / 8

end PcmCodec

structure PcmEncoder where
  frameData : Option (List UInt8) := none
  frameBitOff : Nat := 0
deriving DecidableEq, Repr

namespace PcmEncoder

variable {σ : Type} (codec : PcmCodec σ) (channels : Nat)

/-- `PcmEncoder::begin`. -/
def begin (enc : PcmEncoder) (data : List UInt8) : Except Fault PcmEncoder :=
  match enc.frameData with
  | some _ => .error (.panic "pcm encoder: unpaired begin/end")
  | none => .ok { enc with frameData := some data }

/-- `PcmEncoder::write` of the first `n` ticks of a buffer: the number of ticks written. -/
def write (enc : PcmEncoder) (buffer : List (Tick σ)) (n : Nat) : Except Fault (Nat × PcmEncoder) :=
  match enc.frameData with
  | none => .error (.panic "pcm encoder: write should be called only between begin/end")
  | some data =>
    if enc.frameBitOff > data.length * 8 then .error (.panic "pcm mapper: output offset out of bounds")
    else
      let mapped := min (n * channels) ((data.length * 8 - enc.frameBitOff) / codec.bitWidth)
      if mapped / channels > n then .error (.panic "!(n_mapped_samples <= n_samples)")
      else .ok (mapped / channels,
        { frameData := some (codec.packAll data enc.frameBitOff ((buffer.take n).flatten.take mapped))
          frameBitOff := enc.frameBitOff + mapped * codec.bitWidth })

/-- `PcmEncoder::end`, with the bytes it leaves behind. -/
def finish (enc : PcmEncoder) : Except Fault (List UInt8 × PcmEncoder) :=
  match enc.frameData with
  | none => .error (.panic "pcm encoder: unpaired begin/end")
  | some data => .ok (data, {})

end PcmEncoder

/-- What `rtp::Sequencer` keeps for the next packet. -/
structure Sequencer where
  seqnum : BitVec 16
  streamTs : StreamTimestamp
deriving DecidableEq, Repr

structure RtpPacket where
  seqnum : BitVec 16
  packet : Packet (List UInt8)
deriving DecidableEq, Repr

namespace Sequencer

/-- `Sequencer::next`. -/
def next (seq : Sequencer) (captureTs : Int) (duration : StreamTimestamp) (payload : List UInt8) :
    RtpPacket × Sequencer :=
  ({ seqnum := seq.seqnum
     packet :=
      { streamTimestamp := seq.streamTs
        duration := duration
        captureTimestamp := captureTs
        payload } },
   { seqnum := seq.seqnum + 1, streamTs := seq.streamTs + duration })

end Sequencer

/-- A frame that is written: whole ticks of `channels` samples. -/
structure InFrame (σ : Type) (channels : Nat) where
  ticks : List (Tick σ)
  whole : ∀ tick ∈ ticks, tick.length = channels
  captureTs : Int

structure PacketizerConfig (σ : Type) where
  codec : PcmCodec σ
  sampleSpec : SampleSpec
  samplesPerPacket : Nat
  samplesPerPacket_pos : 0 < samplesPerPacket
  /-- What each call of `create_packet_` returns: the payload of a new packet with whatever the buffer has in it,
  or nothing. -/
  newPacket : Nat → Option (List UInt8)

namespace PacketizerConfig

variable {σ : Type} (config : PacketizerConfig σ)

def channels : Nat := config.sampleSpec.numChannels

def payloadSize : Nat := config.codec.encodedByteCount config.channels config.samplesPerPacket

end PacketizerConfig

structure Packetizer where
  created : Nat := 0
  encoder : PcmEncoder := {}
  sequencer : Sequencer
  /-- `packet_` is not null. -/
  packet : Bool := false
  packetPos : Nat := 0
  packetCts : Int := 0
  captureTs : Int := 0
  /-- The packets written to `writer_`. -/
  sent : List RtpPacket := []
deriving DecidableEq, Repr

namespace Packetizer

variable {σ : Type} (config : PacketizerConfig σ)

/-- `begin_packet_`. -/
def beginPacket (p : Packetizer) : Except Fault (Bool × Packetizer) := do
  match config.newPacket p.created with
  | none => return (false, { p with created := p.created + 1 })
  | some payload =>
    let encoder ← p.encoder.begin payload
    return (true,
      { p with
        created := p.created + 1
        packet := true
        packetPos := 0
        packetCts := p.captureTs
        encoder })

/-- `pad_packet_` with `composer_.pad`, on the payload of a packet that ends at `packetPos`. -/
def padPacket (packetPos : Nat) (payload : List UInt8) (writtenPayloadSize : Nat) : Except Fault (List UInt8) :=
  if ¬ packetPos < config.samplesPerPacket then .ok payload
  else if writtenPayloadSize = config.payloadSize then .ok payload
  else if payload.length < config.payloadSize - writtenPayloadSize then
    .error (.panic "packetizer: can't pad packet")
  else .ok (payload.take (payload.length - (config.payloadSize - writtenPayloadSize)))

/-- `end_packet_`. -/
def endPacket (p : Packetizer) : Except Fault Packetizer := do
  let writtenPayloadSize := config.codec.encodedByteCount config.channels p.packetPos
  if writtenPayloadSize > config.payloadSize then throw (.panic "!(written_payload_size <= payload_size_)")
  let (payload, encoder) ← p.encoder.finish
  let payload ← padPacket config p.packetPos payload writtenPayloadSize
  let (packet, sequencer) := p.sequencer.next p.packetCts (BitVec.ofNat 32 p.packetPos) payload
  return { p with
    encoder := encoder
    sequencer := sequencer
    sent := p.sent ++ [packet]
    packet := false
    packetPos := 0
    packetCts := 0 }

def endIfFull (p : Packetizer) : Except Fault Packetizer :=
  if p.packetPos = config.samplesPerPacket then p.endPacket config else .ok p

def ensurePacket (p : Packetizer) : Except Fault (Bool × Packetizer) :=
  if p.packet then .ok (true, p) else p.beginPacket config

/-- The part of the loop of `write` that encodes ticks of the buffer into the packet in hand; the number of
ticks encoded. -/
def encodeSome (p : Packetizer) (buffer : List (Tick σ)) : Except Fault (Nat × Packetizer) := do
  let requested := min buffer.length (config.samplesPerPacket - p.packetPos)
  let (encoded, encoder) ← p.encoder.write config.codec config.channels buffer requested
  if encoded ≠ requested then throw (.panic "!(n_encoded == n_requested)")
  let p :=
    { p with
      encoder := encoder
      packetPos := p.packetPos + encoded
      captureTs := if p.captureTs ≠ 0 then p.captureTs + config.sampleSpec.samplesPerChanToNs encoded else p.captureTs }
  return (encoded, ← p.endIfFull config)

/-- The loop of `write`, at most `fuel` rounds of it. -/
def writeLoop : Nat → Packetizer → List (Tick σ) → Except Fault Packetizer
  | 0, _, _ => .error .outOfFuel
  | fuel + 1, p, buffer => do
    if buffer.length = 0 then return p
    let (begun, p) ← p.ensurePacket config
    if !begun then return p
    let (encoded, p) ← p.encodeSome config buffer
    writeLoop fuel p (buffer.drop encoded)

/-- `Packetizer::write`. -/
def write (p : Packetizer) (ticks : List (Tick σ)) (captureTs : Int) : Except Fault Packetizer :=
  writeLoop config (ticks.length + 1) { p with captureTs } ticks

/-- `Packetizer::flush`. -/
def flush (p : Packetizer) : Except Fault Packetizer := if p.packet then p.endPacket config else .ok p

def writeAll : List (InFrame σ config.channels) → Packetizer → Except Fault Packetizer
  | [], p => .ok p
  | frame :: rest, p => do
    let p ← p.write config frame.ticks frame.captureTs
    writeAll rest p

/-- A whole session: all frames, then `flush`. -/
def send (frames : List (InFrame σ config.channels)) (sequencer : Sequencer) : Except Fault (List RtpPacket) := do
  let p ← writeAll config frames { sequencer }
  let p ← p.flush config
  return p.sent

end Packetizer
end Roc.Audio
