import MoonlightScarlet.Control.Endpoint
import MoonlightScarlet.Control.Pairing
/-!
# Connecting to a host

`connect` asks the host who it is, pairs with it when the host does not take this
client for paired, and fetches the list of its applications.
-/

namespace MoonlightScarlet.Control

/-- `format!("{:04}", u16::from_be_bytes(bytes) % 10_000)`. -/
def pinText (bytes : Vector UInt8 2) : String :=
  let number := (bytes[0].toNat * 256 + bytes[1].toNat) % 10000
  String.ofList ((Nat.toDigits 10 number).leftpad 4 '0')

/-- `Result::ok`: an error is dropped, a panic unwinds. -/
def ok? {α : Type} (operation : ControlM α) : ControlM (Option α) := fun trace =>
  match operation trace with
  | .ok value trace => .ok (some value) trace
  | .error (.error _) trace => .ok none trace
  | .error .panic trace => .error .panic trace

namespace GameStreamClient

variable (client : GameStreamClient) (lib : Libraries) (urls : UrlLibrary) (world : World)

/-- Query public server information without pairing. -/
def serverInfo (address : String) : ControlM (Endpoint × ServerInfo) := do
  let endpoint ← ofExcept (Endpoint.parse urls address)
  let xml ← client.get world endpoint "http" endpoint.httpPort "serverinfo" [] requestTimeout
  let server ← ofExcept (parseServerInfo lib.parseXml xml)
  return (endpoint, server)

def applications (endpoint : Endpoint) (httpsPort : UInt16) : ControlM (List Application) := do
  let xml ← client.get world endpoint "https" httpsPort "applist" [] requestTimeout
  ofExcept (parseApplications lib.parseXml xml)

/-- The part of `connect` for a host that does not take the client for paired. -/
def connectUnpaired (endpoint : Endpoint) (server : ServerInfo) : ControlM ConnectedHost := do
  if server.currentGame ≠ 0 then
    throw (.error (.pairing "Sunshine is currently streaming; stop that session before pairing"))
  let pin := pinText (← world.randomBytes 2)
  report (.waitingForPin pin)
  client.pair lib world endpoint server pin
  report .fetchingApplications
  let server ← client.authenticatedServerInfo lib world endpoint server.httpsPort
  if !server.paired then
    throw (.error (.pairing "host did not report the client as paired"))
  let applications ← client.applications lib world endpoint server.httpsPort
  return { endpoint, server, applications, newlyPaired := true }

/-- Connect to a host, pair when required, and return its application list. -/
def connect (address : String) : ControlM ConnectedHost := do
  report .fetchingServerInfo
  let (endpoint, server) ← client.serverInfo lib urls world address
  let authenticated ← ok? (client.authenticatedServerInfo lib world endpoint server.httpsPort)
  match authenticated.filter ServerInfo.paired with
  | some server =>
      report .fetchingApplications
      let applications ← client.applications lib world endpoint server.httpsPort
      return { endpoint, server, applications, newlyPaired := false }
  | none => client.connectUnpaired lib world endpoint server

end GameStreamClient

end MoonlightScarlet.Control
