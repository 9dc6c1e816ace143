import MoonlightScarlet.Control.Crypto
/-!
# Requests to a host

A control operation runs against a `World`: a host that answers each request as it
likes, given everything that happened before, and a source of random bytes.  Its
`Trace` records the requests with their answers and the reported progress.
-/

namespace MoonlightScarlet.Control

/-- What `get` is asked for; `timeout` is in seconds. -/
structure Request where
  endpoint : Endpoint
  scheme : String
  port : UInt16
  command : String
  uniqueId : String
  arguments : List (String × String)
  timeout : Nat
  deriving DecidableEq, Repr

inductive ConnectProgress
  | fetchingServerInfo
  | waitingForPin (pin : String)
  | pairingStage (stage : UInt8)
  | fetchingApplications
  deriving DecidableEq, Repr

/-- A request and what became of it: the body of the response, or the failure of
whatever `get` does from building the URL to reading the body. -/
structure Exchange where
  request : Request
  reply : Except ControlError String

inductive Event
  | progress (progress : ConnectProgress)
  | exchange (exchange : Exchange)

structure Trace where
  events : List Event := []
  drawn : Nat := 0

structure World where
  host : List Event → Request → Except ControlError String
  random : Nat → UInt8

/-- An error that the operation returns, or an index out of range. -/
inductive Failure
  | error (error : ControlError)
  | panic

abbrev ControlM := EStateM Failure Trace

def ofExcept {α : Type} : Except ControlError α → ControlM α
  | .ok value => pure value
  | .error error => throw (.error error)

def Trace.log (trace : Trace) (event : Event) : Trace :=
  { trace with events := trace.events ++ [event] }

def report (progress : ConnectProgress) : ControlM Unit := do
  set ((← get).log (.progress progress))

namespace World

variable (world : World)

/-- The bytes that `OsRng` yields from position `drawn` on. -/
def bytesAt (drawn size : Nat) : Vector UInt8 size :=
  Vector.ofFn fun i => world.random (drawn + i)

def randomBytes (size : Nat) : ControlM (Vector UInt8 size) := do
  let trace ← get
  set { trace with drawn := trace.drawn + size }
  return world.bytesAt trace.drawn size

def request (request : Request) : ControlM String := do
  let trace ← get
  let reply := world.host trace.events request
  set (trace.log (.exchange ⟨request, reply⟩))
  ofExcept reply

end World

/-- The identity of this client; `sign` is signing with its private key. -/
structure ClientIdentity where
  certificatePem : String
  certificateSignature : Bytes
  uniqueId : String
  sign : Bytes → Bytes

structure GameStreamClient where
  identity : ClientIdentity

def requestTimeout : Nat := 5
def pairingTimeout : Nat := 120

namespace GameStreamClient

variable (client : GameStreamClient) (lib : Libraries) (world : World)

def get (endpoint : Endpoint) (scheme : String) (port : UInt16) (command : String)
    (arguments : List (String × String)) (timeout : Nat) : ControlM String :=
  world.request
    { endpoint, scheme, port, command, uniqueId := client.identity.uniqueId, arguments, timeout }

def authenticatedServerInfo (endpoint : Endpoint) (httpsPort : UInt16) :
    ControlM ServerInfo := do
  let xml ← client.get world endpoint "https" httpsPort "serverinfo" [] requestTimeout
  ofExcept (parseServerInfo lib.parseXml xml)

end GameStreamClient

end MoonlightScarlet.Control
