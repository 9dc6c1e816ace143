import Mathlib.Data.List.Basic
/-!
# The configuration of a connection

What `Connection::start_with_audio` is given, and the checks it makes before it claims the
core.
-/

namespace MoonlightScarlet.Sys

structure HostConnectionInfo where
  address : String
  appVersion : String
  gfeVersion : Option String
  rtspSessionUrl : String
  serverCodecModeSupport : UInt32
  deriving DecidableEq, Repr

structure StreamConfiguration where
  width : UInt32
  height : UInt32
  fps : UInt32
  bitrateKbps : UInt32
  packetSize : UInt32
  remoteInputAesKey : Vector UInt8 16
  remoteInputAesIv : Vector UInt8 16
  deriving DecidableEq

def StreamConfiguration.new (width height fps : UInt32)
    (remoteInputAesKey remoteInputAesIv : Vector UInt8 16) : StreamConfiguration :=
  { width, height, fps, bitrateKbps := 20000, packetSize := 1024, remoteInputAesKey
    remoteInputAesIv }

def StreamConfiguration.withBitrateKbps (stream : StreamConfiguration) (bitrateKbps : UInt32) :
    StreamConfiguration :=
  { stream with bitrateKbps }

/-- The errors of the checks; the others come from the core. -/
inductive ConnectionError
  | invalidConfiguration (message : String)
  deriving DecidableEq, Repr

/-- A `c_int` that is not zero. -/
def positiveInt (name : String) (value : UInt32) : Except ConnectionError Int32 :=
  if value = 0 then .error (.invalidConfiguration s!"{name} must be non-zero")
  -- The bound is `c_int::MAX`.
  else if value > 0x7fffffff then
    .error (.invalidConfiguration s!"{name} does not fit in a C integer")
  else .ok value.toInt32

/-- A `CString`. -/
structure CString where
  text : String
  noNul : Char.ofNat 0 ∉ text.toList
  deriving DecidableEq

def cString (name value : String) : Except ConnectionError CString :=
  if value.isEmpty then .error (.invalidConfiguration s!"{name} is empty")
  else if hnul : Char.ofNat 0 ∉ value.toList then .ok ⟨value, hnul⟩
  else .error (.invalidConfiguration s!"{name} contains an interior NUL byte")

structure RawStreamConfiguration where
  width : Int32
  height : Int32
  fps : Int32
  bitrate : Int32
  packetSize : Int32
  clientRefreshRateX100 : Int32
  remoteInputAesKey : Vector UInt8 16
  remoteInputAesIv : Vector UInt8 16
  deriving DecidableEq

/-- `u32::checked_mul`. -/
def checkedMul (a b : UInt32) : Option UInt32 :=
  if a.toNat * b.toNat < UInt32.size then some (a * b) else none

/-- `Option::ok_or_else`. -/
def okOr {α : Type} : Option α → ConnectionError → Except ConnectionError α
  | some value, _ => .ok value
  | none, error => .error error

def StreamConfiguration.validated (stream : StreamConfiguration) :
    Except ConnectionError RawStreamConfiguration := do
  let width ← positiveInt "width" stream.width
  let height ← positiveInt "height" stream.height
  let fps ← positiveInt "FPS" stream.fps
  let bitrate ← positiveInt "bitrate" stream.bitrateKbps
  let packetSize ← positiveInt "packet size" stream.packetSize
  let refreshRate ←
    okOr (checkedMul stream.fps 100) (.invalidConfiguration "refresh rate is too large")
  return {
    width, height, fps, bitrate, packetSize
    clientRefreshRateX100 := ← positiveInt "refresh rate" refreshRate
    remoteInputAesKey := stream.remoteInputAesKey
    remoteInputAesIv := stream.remoteInputAesIv }

structure HostStrings where
  address : CString
  appVersion : CString
  gfeVersion : Option CString
  rtspSessionUrl : CString
  deriving DecidableEq

def HostStrings.new (host : HostConnectionInfo) : Except ConnectionError HostStrings := do
  return {
    address := ← cString "address" host.address
    appVersion := ← cString "app version" host.appVersion
    gfeVersion := ← host.gfeVersion.mapM (cString "GFE version")
    rtspSessionUrl := ← cString "RTSP session URL" host.rtspSessionUrl }

/-- The checks of `start_with_audio`, in their order, with what they hand to the core. -/
def checkInputs (host : HostConnectionInfo) (stream : StreamConfiguration) :
    Except ConnectionError (HostStrings × RawStreamConfiguration × Int32) := do
  let hostStrings ← HostStrings.new host
  let stream ← stream.validated
  let codecSupport ← positiveInt "server codec support" host.serverCodecModeSupport
  return (hostStrings, stream, codecSupport)

end MoonlightScarlet.Sys
