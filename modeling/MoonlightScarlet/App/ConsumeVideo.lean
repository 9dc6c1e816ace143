import MoonlightScarlet.Sys.VideoFrame
/-!
# Platform video consumption

Both variants of `consume_video` and the end of `stream::run` around them.  Every
iteration of the loop has a `Round`: what the world outside answers during it.
-/

namespace MoonlightScarlet.App

open Sys

structure VideoSetup where
  videoFormat : Int32
  width : UInt32
  height : UInt32
  fps : UInt32

def VideoSetup.isH264 (setup : VideoSetup) : Bool := setup.videoFormat &&& 0x000F != 0

/-- The visible part of a decoded image. -/
structure Image where
  width : UInt32
  height : UInt32

inductive DecodedOutput
  | image (image : Image)
  | other

/-- The answers of one iteration: `ended` tells why `wait_for_video_frame` would return
before it asks the core. -/
structure Round where
  stopRequested : Bool := false
  ended : Bool := false
  answer : FrameWait
  submit : List UInt8 → UInt64 → Except String Unit := fun _ _ => .ok ()
  dequeueOutput : Except String (Option DecodedOutput) := .ok none
  presentImage : Image → Except String Unit := fun _ => .ok ()
  audioError : Option String := none

/-- The decoder library and the monitor while they are set up. -/
structure Client where
  recommendedInputBufferLen : Nat → Option Nat
  recommendedNv12OutputBufferLen : UInt32 → UInt32 → Option Nat
  openWithOptions : Nat → Nat → Except String Unit
  configure : Except String Unit
  startMonitor : Except String Unit

/-- The calls of the core, the messages passed to `progress` and whether the
connection was stopped. -/
structure Consumer where
  calls : List FrameCall := []
  messages : List String := []
  stopped : Bool := false

abbrev ConsumerM := EStateM String Consumer

def progress (message : String) : ConsumerM Unit :=
  modify fun s => { s with messages := s.messages ++ [message] }

/-- The operator `?`. -/
def propagate (result : Except String Unit) : ConsumerM Unit :=
  match result with
  | .error error => throw error
  | .ok () => pure ()

/-- A call whose error is turned into its text. -/
def withCore {α : Type} (call : FrameM α) : ConsumerM α := fun s =>
  match call.run s.calls with
  | .ok a calls => .ok a { s with calls }
  | .error error calls => .error error.display { s with calls }

/-- The variables of `consume_video` outside of the loop. -/
structure Counters where
  frameCount : UInt64 := 0
  audioErrorReported : Bool := false

def saturatingSucc (count : UInt64) : UInt64 :=
  if count = UInt64.ofNat (UInt64.size - 1) then count else count + 1

def reportAudioError (round : Round) (reported : Bool) : ConsumerM Bool :=
  if reported then pure true
  else
    match round.audioError with
    | none => pure false
    | some error => do
        progress s!"Audio disabled: {error}"
        pure true

def isAnnexB (accessUnit : List UInt8) : Bool :=
  [0, 0, 1].isPrefixOf accessUnit || [0, 0, 0, 1].isPrefixOf accessUnit

/-- `complete(NeedIdr)` and an error. -/
def reject {α : Type} (frame : VideoFrame) (error : String) : ConsumerM α := do
  withCore (frame.complete .needIdr)
  throw error

/-- The end of an iteration that went well. -/
def finish (frame : VideoFrame) (round : Round) (counters : Counters) : ConsumerM Counters := do
  withCore (frame.complete .complete)
  let audioErrorReported ← reportAudioError round counters.audioErrorReported
  pure { counters with audioErrorReported }

/-- What an iteration of the host variant does with its frame.  The `?` after the
copy drops the frame. -/
def serveHost (frame : VideoFrame) (round : Round) (counters : Counters) :
    ConsumerM Counters :=
  let counted := { counters with frameCount := saturatingSucc counters.frameCount }
  if counters.frameCount = 0 then
    match frame.copyAccessUnit with
    | .error error => do
        withCore frame.drop
        throw error.display
    | .ok accessUnit =>
        if isAnnexB accessUnit then do
          progress "Video transport active (preview is unsupported on this host)"
          finish frame round counted
        else reject frame "first H.264 frame is not an Annex B access unit"
  else finish frame round counted

/-- What an iteration of the Scarlet variant does with its frame. -/
def serveScarlet (frame : VideoFrame) (round : Round) (counters : Counters) :
    ConsumerM Counters :=
  match frame.copyAccessUnit with
  | .error error => reject frame error.display
  | .ok accessUnit =>
      match round.submit accessUnit frame.presentationTimeUs with
      | .error error => reject frame error
      | .ok () =>
          match round.dequeueOutput with
          | .error error => reject frame error
          | .ok none => finish frame round counters
          | .ok (some .other) =>
              reject frame "Moonlight requires shared NV12 decoder output"
          | .ok (some (.image image)) =>
              match round.presentImage image with
              | .error error => reject frame error
              | .ok () => do
                  let frameCount := saturatingSucc counters.frameCount
                  if frameCount = 1 then
                    progress (s!"Presented first {image.width}x{image.height} shared NV12 frame "
                      ++ "(GPU color conversion/scaling)")
                  finish frame round { counters with frameCount }

inductive Platform
  | host
  | scarlet
  deriving DecidableEq, Repr

def Platform.serve : Platform → VideoFrame → Round → Counters → ConsumerM Counters
  | .host => serveHost
  | .scarlet => serveScarlet

/-- The loop from the iteration `n` on; `false` when the fuel ended before it did. -/
def consumeLoop (platform : Platform) (rounds : Nat → Round) :
    Nat → Nat → Counters → ConsumerM Bool
  | 0, _, _ => pure false
  | fuel + 1, n, counters =>
      if (rounds n).stopRequested then pure true
      else do
        match ← withCore (Connection.waitForVideoFrame (rounds n).ended (rounds n).answer) with
        | none => pure true
        | some frame => do
            let counters ← platform.serve frame (rounds n) counters
            consumeLoop platform rounds fuel (n + 1) counters

def maxCodedAccessUnit : Nat := 4 * 1024 * 1024

/-- What the Scarlet variant does before its loop. -/
def openDecoder (client : Client) (setup : VideoSetup) : ConsumerM Unit :=
  match client.recommendedInputBufferLen maxCodedAccessUnit with
  | none => throw "failed to size the hardware decoder input buffer"
  | some inputLen =>
      match client.recommendedNv12OutputBufferLen setup.width setup.height with
      | none => throw "failed to size the hardware decoder output buffer"
      | some outputLen => do
          propagate (client.openWithOptions inputLen outputLen)
          propagate client.configure
          progress "Scarlet H.264 decoder ready"
          propagate client.startMonitor

def consumeVideo (platform : Platform) (client : Client) (setup : VideoSetup)
    (rounds : Nat → Round) (fuel : Nat) : ConsumerM Bool :=
  match platform with
  | .host => consumeLoop .host rounds fuel 0 {}
  | .scarlet => do
      openDecoder client setup
      consumeLoop .scarlet rounds fuel 0 {}

/-- `Connection::stop`, which `Drop` calls once more. -/
def Consumer.stop (s : Consumer) : Consumer :=
  if s.stopped then s
  else { s with calls := s.calls ++ [.stopConnection], stopped := true }

/-- `{:x}` of an `i32`. -/
def hex (value : Int32) : String := String.ofList (Nat.toDigits 16 value.toUInt32.toNat)

/-- `stream::run` from the started connection on.  There is no result while the loop
is still running. -/
def runStream (platform : Platform) (client : Client) (videoSetup : Option VideoSetup)
    (bitrateKbps : UInt32) (rounds : Nat → Round) (terminationError : Option Int32)
    (fuel : Nat) : Option (Except String Unit) × Consumer :=
  let dropped : Consumer := Consumer.stop {}
  match videoSetup with
  | none => (some (.error "stream started without negotiated video parameters"), dropped)
  | some setup =>
      if !setup.isH264 then
        (some (.error s!"host selected unsupported video format 0x{hex setup.videoFormat}"),
          dropped)
      else
        let started : Consumer := { messages :=
          [s!"Streaming {setup.width}x{setup.height} at {setup.fps} FPS, {bitrateKbps} kbps"] }
        match (consumeVideo platform client setup rounds fuel).run started with
        | .ok false s => (none, s)
        | .error error s => (some (.error error), s.stop.stop)
        | .ok true s =>
            let result :=
              match terminationError with
              | none => .ok ()
              | some error =>
                  if error = 0 then .ok ()
                  else .error s!"stream terminated with error {error}"
            (some result, s.stop.stop)

end MoonlightScarlet.App
