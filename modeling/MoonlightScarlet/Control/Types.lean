import MoonlightScarlet.Control.Text
/-!
# Values of the control plane
-/

namespace MoonlightScarlet.Control

/-- Errors of the control plane.  The texts of other crates' errors are opaque. -/
inductive ControlError
  | invalidHost (message : String)
  | http (message : String)
  | io (message : String)
  | identity (message : String)
  | configuration (message : String)
  | xml (message : String)
  | protocol (code : UInt32) (message : String)
  | crypto (message : String)
  | pairing (message : String)
  | session (message : String)
  deriving DecidableEq, Repr

/-- `error.to_string()`. -/
def ControlError.text : ControlError → String
  | .invalidHost message => s!"invalid host: {message}"
  | .http message => s!"network request failed: {message}"
  | .io message => s!"identity storage failed: {message}"
  | .identity message => s!"client identity failed: {message}"
  | .configuration message => s!"client configuration failed: {message}"
  | .xml message => s!"invalid host response: {message}"
  | .protocol code message => s!"host rejected request ({code}): {message}"
  | .crypto message => s!"pairing cryptography failed: {message}"
  | .pairing message => s!"pairing failed: {message}"
  | .session message => s!"session control failed: {message}"

structure Endpoint where
  host : String
  httpPort : UInt16
  deriving DecidableEq, Repr

structure Application where
  id : UInt32
  title : String
  deriving DecidableEq, Repr

structure ServerInfo where
  hostname : String
  uniqueId : String
  appVersion : String
  gfeVersion : Option String
  serverCodecModeSupport : UInt32
  httpsPort : UInt16
  paired : Bool
  currentGame : UInt32
  state : String
  deriving DecidableEq, Repr

/-- The major GameStream generation: the text before the first dot. -/
def ServerInfo.serverMajorVersion (server : ServerInfo) : Except ControlError UInt32 :=
  match parseU32 (String.ofList (server.appVersion.toList.takeWhile (· ≠ '.'))) with
  | some version => .ok version
  | none => .error (.xml s!"invalid appversion: {server.appVersion}")

structure ConnectedHost where
  endpoint : Endpoint
  server : ServerInfo
  applications : List Application
  newlyPaired : Bool
  deriving DecidableEq, Repr

end MoonlightScarlet.Control
