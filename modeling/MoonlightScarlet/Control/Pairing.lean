import MoonlightScarlet.Control.Client
/-!
# The pairing handshake

`pairInner` is the five dependent round trips of `pair_inner`, one definition for
each stage.  Slices are checked: one out of range ends the run with `panic`.
-/

namespace MoonlightScarlet.Control

/-- `&bytes[start..stop]`. -/
def slice (bytes : Bytes) (start stop : Nat) : ControlM Bytes :=
  if start ≤ stop ∧ stop ≤ bytes.length then pure ((bytes.take stop).drop start)
  else throw .panic

/-- `bytes.split_at(mid)`. -/
def splitAt (bytes : Bytes) (mid : Nat) : ControlM (Bytes × Bytes) :=
  if mid ≤ bytes.length then pure (bytes.take mid, bytes.drop mid) else throw .panic

/-- `bytes.try_into()` for a block. -/
def toBlock (bytes : Bytes) : Option Block :=
  if h : bytes.length = 16 then some ⟨bytes.toArray, h⟩ else none

/-- `bytes.resize(size, 0)`. -/
def resize (bytes : Bytes) (size : Nat) : Bytes :=
  bytes.take size ++ List.replicate (size - bytes.length) 0

def hashLength (serverMajorVersion : UInt32) : Nat := if serverMajorVersion ≥ 7 then 32 else 20

def reject {α : Type} (message : String) : ControlM α := throw (.error (.pairing message))

/-- The arguments that every stage sends first. -/
def pairArguments (arguments : List (String × String)) : List (String × String) :=
  [("devicename", "roth"), ("updateState", "1")] ++ arguments

namespace GameStreamClient

variable (client : GameStreamClient) (lib : Libraries) (world : World) (endpoint : Endpoint)

/-- A stage's request over HTTP. -/
def pairGet (arguments : List (String × String)) (timeout : Nat) : ControlM String :=
  client.get world endpoint "http" endpoint.httpPort "pair" (pairArguments arguments) timeout

/-- Returns the certificate of the server. -/
def stageOne (salt : Block) : ControlM Bytes := do
  report (.pairingStage 1)
  let stageOne ← client.pairGet world endpoint
    [("phrase", "getservercert"), ("salt", hexEncode salt.toList),
      ("clientcert", hexEncode (utf8 client.identity.certificatePem))] pairingTimeout
  ofExcept (requirePaired lib.parseXml stageOne "stage 1")
  let serverCertificate ← ofExcept
    (responseHex lib.parseXml lib.hexError stageOne "plaincert")
  if serverCertificate.isEmpty then reject "another pairing session is already active"
  return serverCertificate

/-- Returns the challenge that was sent and the decrypted response. -/
def stageTwo (hashLength : Nat) (aesKey : Block) : ControlM (Block × Bytes) := do
  report (.pairingStage 2)
  let randomChallenge ← world.randomBytes 16
  let encryptedChallenge ← ofExcept (lib.aesEncryptZeroPadded randomChallenge.toList aesKey)
  let stageTwo ← client.pairGet world endpoint
    [("clientchallenge", hexEncode encryptedChallenge)] requestTimeout
  ofExcept (requirePaired lib.parseXml stageTwo "stage 2")
  let encryptedResponse ← ofExcept
    (responseHex lib.parseXml lib.hexError stageTwo "challengeresponse")
  let decryptedResponse ← ofExcept (lib.aesDecrypt encryptedResponse aesKey)
  if decryptedResponse.length < hashLength + 16 then
    reject "stage 2 challenge response is too short"
  return (randomChallenge, decryptedResponse)

/-- Returns the client's secret and the pairing secret of the server. -/
def stageThree (serverMajorVersion : UInt32) (aesKey : Block) (serverChallenge : Bytes) :
    ControlM (Block × Bytes) := do
  report (.pairingStage 3)
  let clientSecret ← world.randomBytes 16
  let challengeHashInput :=
    serverChallenge ++ client.identity.certificateSignature ++ clientSecret.toList
  let challengeHash := resize (lib.hashForServer challengeHashInput serverMajorVersion) 32
  let encryptedChallengeHash ← ofExcept (lib.aesEncryptZeroPadded challengeHash aesKey)
  let stageThree ← client.pairGet world endpoint
    [("serverchallengeresp", hexEncode encryptedChallengeHash)] requestTimeout
  ofExcept (requirePaired lib.parseXml stageThree "stage 3")
  let pairingSecret ← ofExcept
    (responseHex lib.parseXml lib.hexError stageThree "pairingsecret")
  if pairingSecret.length ≤ 16 then reject "stage 3 pairing secret is too short"
  return (clientSecret, pairingSecret)

/-- The checks between stages 3 and 4: the server's signature over its secret, and the
response of stage 2 against what a server that knows the PIN computes. -/
def proveServer (serverMajorVersion : UInt32) (serverCertificate : Bytes)
    (randomChallenge : Block) (serverResponse pairingSecret : Bytes) : ControlM Unit := do
  let (serverSecret, serverSignature) ← splitAt pairingSecret 16
  match lib.verifySignature serverCertificate serverSecret serverSignature with
  | .error error => reject error.text
  | .ok () => pure ()
  let signature ← ofExcept (lib.certificateSignature serverCertificate)
  let expectedResponseInput := randomChallenge.toList ++ signature ++ serverSecret
  let expectedResponse := lib.hashForServer expectedResponseInput serverMajorVersion
  let expectedResponse ← slice expectedResponse 0 (hashLength serverMajorVersion)
  if serverResponse ≠ expectedResponse then reject "incorrect PIN"

def stageFour (clientSecret : Block) : ControlM Unit := do
  report (.pairingStage 4)
  let clientPairingSecret := clientSecret.toList ++ client.identity.sign clientSecret.toList
  let stageFour ← client.pairGet world endpoint
    [("clientpairingsecret", hexEncode clientPairingSecret)] requestTimeout
  ofExcept (requirePaired lib.parseXml stageFour "stage 4")

def stageFive (httpsPort : UInt16) : ControlM Unit := do
  report (.pairingStage 5)
  let stageFive ← client.get world endpoint "https" httpsPort "pair"
    (pairArguments [("phrase", "pairchallenge")]) requestTimeout
  ofExcept (requirePaired lib.parseXml stageFive "stage 5")

def pairInner (server : ServerInfo) (pin : String) : ControlM Unit := do
  let serverMajorVersion ← ofExcept server.serverMajorVersion
  let hashLength := hashLength serverMajorVersion
  let salt ← world.randomBytes 16
  let digest := lib.hashForServer (salt.toList ++ utf8 pin) serverMajorVersion
  let aesKey ←
    match toBlock (← slice digest 0 16) with
    | some aesKey => pure aesKey
    | none => throw (.error (.crypto "pairing digest is too short"))
  let serverCertificate ← client.stageOne lib world endpoint salt
  let (randomChallenge, decryptedResponse) ← client.stageTwo lib world endpoint hashLength aesKey
  let serverResponse ← slice decryptedResponse 0 hashLength
  let serverChallenge ← slice decryptedResponse hashLength (hashLength + 16)
  let (clientSecret, pairingSecret) ←
    client.stageThree lib world endpoint serverMajorVersion aesKey serverChallenge
  proveServer lib serverMajorVersion serverCertificate randomChallenge serverResponse pairingSecret
  client.stageFour lib world endpoint clientSecret
  client.stageFive lib world endpoint server.httpsPort

/-- A failed handshake is cleared on the host; what becomes of that request is ignored.
A panic unwinds through `pair`. -/
def pair (server : ServerInfo) (pin : String) : ControlM Unit := fun trace =>
  match client.pairInner lib world endpoint server pin trace with
  | .ok () trace => .ok () trace
  | .error .panic trace => .error .panic trace
  | .error (.error error) trace =>
      let unpair := client.get world endpoint "http" endpoint.httpPort "unpair" [] requestTimeout
      match unpair trace with
      | .ok _ trace => .error (.error error) trace
      | .error _ trace => .error (.error error) trace

end GameStreamClient

end MoonlightScarlet.Control
