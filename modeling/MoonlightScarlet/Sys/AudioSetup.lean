import MoonlightScarlet.Sys.VideoFrame
/-!
# Parameters of the audio stream

`AudioSetup::from_raw` checks what the core passes to the audio callback, and
`OpusDecoder::new` passes the result on to libopus.
-/

namespace MoonlightScarlet.Sys

open Support.Memory

def maxAudioChannels : Nat := 8

structure AudioSetup where
  configuration : Int32
  sampleRate : UInt32
  channelCount : UInt8
  streams : UInt8
  coupledStreams : UInt8
  samplesPerFrame : UInt32
  mapping : Vector UInt8 maxAudioChannels
  deriving DecidableEq

namespace AudioSetup

/-- The slice that the method `mapping` returns. -/
def mappingEntries (setup : AudioSetup) : List UInt8 :=
  setup.mapping.toList.take setup.channelCount.toNat

/-- `Option::ok_or_else`. -/
def okOr {α : Type} (error : String) : Option α → Except String α
  | some value => .ok value
  | none => .error error

/-- `u32::try_from` of a `c_int`. -/
def u32TryFrom (value : Int32) : Option UInt32 :=
  if value < 0 then none else some value.toUInt32

/-- `u8::try_from` of a `c_int`. -/
def u8TryFrom (value : Int32) : Option UInt8 :=
  if value < 0 ∨ 255 < value then none else some value.toUInt32.toUInt8

/-- `mapping` points to the entries, unless it is null. -/
def fromRaw (configuration sampleRate channelCount streams coupledStreams
    samplesPerFrame : Int32) (mapping : Option (Mem UInt8)) : Except String AudioSetup := do
  let channelCount ← okOr "invalid Opus channel count"
    ((usizeTryFrom channelCount).filter fun count =>
      1 ≤ count.toNat && count.toNat ≤ maxAudioChannels)
  let sampleRate ← okOr "invalid Opus sample rate"
    ((u32TryFrom sampleRate).filter fun rate => rate != 0)
  let streams ← okOr "invalid Opus stream count"
    ((u8TryFrom streams).filter fun count => count != 0)
  let coupledStreams ← okOr "invalid Opus coupled-stream count"
    ((u8TryFrom coupledStreams).filter fun count => count ≤ streams)
  let samplesPerFrame ← okOr "invalid Opus frame size"
    ((u32TryFrom samplesPerFrame).filter fun count => count != 0)
  let mapping ← okOr "missing Opus channel mapping" mapping
  let copiedMapping : Vector UInt8 maxAudioChannels :=
    Vector.ofFn fun i => if i.toNat < channelCount.toNat then mapping i.toNat else 0
  return {
    configuration, sampleRate
    channelCount := channelCount.toUInt8
    streams, coupledStreams, samplesPerFrame
    mapping := copiedMapping }

example : (fromRaw 0 48000 2 1 1 240 (some fun i => i.toUInt8)).map mappingEntries =
    .ok [0, 1] := by decide

end AudioSetup

/-- The arguments of `opus_multistream_decoder_create`. -/
structure DecoderArguments where
  sampleRate : Int32
  channelCount : Int32
  streams : Int32
  coupledStreams : Int32
  mapping : List UInt8
  deriving DecidableEq

/-- The call in `OpusDecoder::new`. -/
def decoderArguments (setup : AudioSetup) : DecoderArguments where
  sampleRate := setup.sampleRate.toInt32
  channelCount := setup.channelCount.toUInt32.toInt32
  streams := setup.streams.toUInt32.toInt32
  coupledStreams := setup.coupledStreams.toUInt32.toInt32
  mapping := setup.mappingEntries

end MoonlightScarlet.Sys
