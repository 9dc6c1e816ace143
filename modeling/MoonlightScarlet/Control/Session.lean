import MoonlightScarlet.Control.Client
/-!
# Application launch, resume, and cancellation

Three entry points start a session.  Each asks the host for its state first and sends
at most one request to start the application.
-/

namespace MoonlightScarlet.Control

def launchTimeout : Nat := 120
def resumeTimeout : Nat := 30
def cancelTimeout : Nat := 30
def stereoSurroundAudioInfo : UInt32 := ((0x3 : UInt32) <<< 16) ||| 2
def moonlightCoreVersion : UInt32 := 1

structure LaunchConfig where
  width : UInt32 := 1920
  height : UInt32 := 1080
  fps : UInt32 := 60
  bitrateKbps : UInt32 := 20000
  optimizeGameSettings : Bool := true
  playAudioOnHost : Bool := false
  gamepadMask : UInt32 := 0
  persistGamepads : Bool := false
  deriving DecidableEq, Repr

def LaunchConfig.validate (config : LaunchConfig) : Except ControlError Unit :=
  if config.width = 0 ∨ config.height = 0 ∨ config.fps = 0 then
    .error (.session "stream width, height, and FPS must be non-zero")
  -- The bound is `i32::MAX`.
  else if config.bitrateKbps = 0 ∨ config.bitrateKbps > 0x7fffffff then
    .error (.session "invalid video bitrate")
  else .ok ()

structure StreamSession where
  endpoint : Endpoint
  server : ServerInfo
  application : Application
  config : LaunchConfig
  sessionUrl : String
  remoteInputAesKey : Block
  remoteInputAesIv : Block
  resumed : Bool
  deriving DecidableEq

inductive StartVerb
  | launch
  | resume
  deriving DecidableEq, Repr

namespace StartVerb

def command : StartVerb → String
  | launch => "launch"
  | resume => "resume"

def successTag : StartVerb → String
  | launch => "gamesession"
  | resume => "resume"

def timeout : StartVerb → Nat
  | launch => launchTimeout
  | resume => resumeTimeout

end StartVerb

def validateApplication (host : ConnectedHost) (application : Application) :
    Except ControlError Unit :=
  if application.id = 0 then .error (.session "application ID must be non-zero")
  else if !host.applications.any fun candidate => candidate.id == application.id then
    .error (.session
      s!"application {application.id} is not in the connected host's application list")
  else .ok ()

/-- `i32::from_be_bytes`. -/
def i32FromBeBytes (bytes : Vector UInt8 4) : Int32 :=
  (UInt32.ofNat (((bytes[0].toNat * 256 + bytes[1].toNat) * 256 + bytes[2].toNat) * 256 +
    bytes[3].toNat)).toInt32

/-- `u8::from(flag).to_string()`. -/
def flagText (flag : Bool) : String := toString flag.toNat

def sessionArguments (applicationId : UInt32) (config : LaunchConfig) (remoteInputKey : Block)
    (remoteInputKeyId : Int32) : List (String × String) :=
  [("appid", toString applicationId),
    ("mode", s!"{config.width}x{config.height}x{config.fps}"),
    ("additionalStates", "1"),
    ("sops", flagText config.optimizeGameSettings),
    ("rikey", hexEncode remoteInputKey.toList),
    ("rikeyid", toString remoteInputKeyId),
    ("localAudioPlayMode", flagText config.playAudioOnHost),
    ("surroundAudioInfo", toString stereoSurroundAudioInfo),
    ("remoteControllersBitmap", toString config.gamepadMask),
    ("gcmap", toString config.gamepadMask),
    ("gcpersist", flagText config.persistGamepads),
    ("corever", toString moonlightCoreVersion)]

def requireSuccessFlag (parse : XmlParser) (xml tag : String) : Except ControlError Unit := do
  if (← responseText parse xml tag) = "1" then return ()
  else throw (.session s!"host returned an unsuccessful {tag} response")

namespace GameStreamClient

variable (client : GameStreamClient) (lib : Libraries) (world : World) (host : ConnectedHost)

def sessionServerInfo : ControlM ServerInfo := do
  let server ← client.authenticatedServerInfo lib world host.endpoint host.server.httpsPort
  if !server.paired then
    throw (.error (.pairing "host no longer recognizes this client as paired"))
  return server

def requestSession (server : ServerInfo) (application : Application) (config : LaunchConfig)
    (verb : StartVerb) : ControlM StreamSession := do
  let key ← world.randomBytes 16
  let keyIdBytes ← world.randomBytes 4
  let iv : Vector UInt8 (4 + 12) := keyIdBytes ++ Vector.replicate 12 (0 : UInt8)
  let keyId := i32FromBeBytes keyIdBytes
  let arguments := sessionArguments application.id config key keyId
  let xml ← client.get world host.endpoint "https" server.httpsPort verb.command arguments
    verb.timeout
  ofExcept (requireSuccessFlag lib.parseXml xml verb.successTag)
  let sessionUrl ← ofExcept (responseText lib.parseXml xml "sessionUrl0")
  if sessionUrl.isEmpty then
    throw (.error (.session "host returned an empty sessionUrl0"))
  return {
    endpoint := host.endpoint
    server := { server with currentGame := application.id }
    application, config, sessionUrl
    remoteInputAesKey := key
    remoteInputAesIv := iv
    resumed := verb == .resume }

/-- Launch or resume the application, as the state of the host asks for. -/
def startSession (application : Application) (config : LaunchConfig) :
    ControlM StreamSession := do
  ofExcept config.validate
  ofExcept (validateApplication host application)
  let server ← client.sessionServerInfo lib world host
  let verb ←
    if server.currentGame = 0 then pure .launch
    else if server.currentGame = application.id then pure .resume
    else
      throw (.error (.session (s!"host is already running application {server.currentGame}; " ++
        s!"cancel it before starting {application.id}")))
  client.requestSession lib world host server application config verb

/-- Launch an application when the host is idle. -/
def launch (application : Application) (config : LaunchConfig) : ControlM StreamSession := do
  ofExcept config.validate
  ofExcept (validateApplication host application)
  let server ← client.sessionServerInfo lib world host
  if server.currentGame ≠ 0 then
    throw (.error (.session s!"host is already running application {server.currentGame}"))
  client.requestSession lib world host server application config .launch

/-- Resume the application when it is already running on the host. -/
def resume (application : Application) (config : LaunchConfig) : ControlM StreamSession := do
  ofExcept config.validate
  ofExcept (validateApplication host application)
  let server ← client.sessionServerInfo lib world host
  if server.currentGame = 0 then
    throw (.error (.session "host has no running application to resume"))
  else if server.currentGame ≠ application.id then
    throw (.error (.session
      s!"host is running application {server.currentGame}, not {application.id}"))
  else
    client.requestSession lib world host server application config .resume

/-- Cancel the running application; the host must then report that none is left. -/
def cancel : ControlM ServerInfo := do
  let server ← client.sessionServerInfo lib world host
  let xml ← client.get world host.endpoint "https" server.httpsPort "cancel" [] cancelTimeout
  ofExcept (requireSuccessFlag lib.parseXml xml "cancel")
  let server ← client.sessionServerInfo lib world host
  if server.currentGame ≠ 0 then
    throw (.error (.session
      s!"host still reports application {server.currentGame} after cancellation"))
  return server

end GameStreamClient

end MoonlightScarlet.Control
