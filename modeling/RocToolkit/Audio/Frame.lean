import Mathlib.Algebra.Order.Ring.Int
import Mathlib.Algebra.Order.Group.Nat
import Mathlib.Data.List.Basic
import RocToolkit.Packet.Order

/-!
# RocToolkit.Audio.Frame

What the two depacketizers share: packets, frames and the part of `audio::SampleSpec` they use.
-/

namespace Roc.Audio

export Roc.Packet (StreamTimestamp streamTimestampDiff streamTimestampLt)

/-- What a depacketizer reads of a `packet::Packet`; `ρ` is the type of payloads. -/
structure Packet (ρ : Type) where
  streamTimestamp : StreamTimestamp
  duration : StreamTimestamp
  captureTimestamp : Int
  payload : ρ
deriving DecidableEq, Repr

/-- What the depacketizers use of `audio::SampleSpec`. -/
structure SampleSpec where
  numChannels : Nat
  sampleRate : Nat
  /-- `samples_per_chan_2_ns`, a rounding computed in floating point. -/
  samplesPerChanToNs : Nat → Int
  numChannels_pos : 0 < numChannels

namespace SampleSpec

/-- `SampleSpec::samples_overall_2_ns`. -/
def samplesOverallToNs (spec : SampleSpec) (n : Nat) : Int := spec.samplesPerChanToNs (n / spec.numChannels)

end SampleSpec

/-- `FrameInfo` of a depacketizer. -/
structure FrameInfo where
  numDecodedSamples : Nat := 0
  numFilledSamples : Nat := 0
  numDroppedPackets : Nat := 0
  captureTs : Int := 0
deriving DecidableEq, Repr

/-- What `set_frame_props_` and the copying leave in the frame. -/
structure Frame (σ : Type) where
  samples : List σ
  notBlank : Bool
  notComplete : Bool
  packetDrops : Bool
  duration : Nat
  captureTimestamp : Option Int
deriving DecidableEq, Repr

structure Filler (σ : Type) where
  zero : σ
  beep : Nat → σ

end Roc.Audio
