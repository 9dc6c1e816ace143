import MoonlightScarlet.Control.Crypto
import MoonlightScarlet.Control.Endpoint
import MoonlightScarlet.Control.Storage
/-!
# The persistent client identity

Key generation, certificates and the PEM formats are functions of other crates.  An
`Entropy` is what `OsRng` yields while one key is generated.
-/

namespace MoonlightScarlet.Control

structure IdentityLibrary extends Libraries where
  Entropy : Type
  PrivateKey : Type
  KeyPair : Type
  CertificateParams : Type
  publicKeyEq : DecidableEq PublicKey
  /-- `RsaPrivateKey::new` with 2048 bits. -/
  newPrivateKey : Entropy → Except String PrivateKey
  toPkcs8Pem : PrivateKey → Except String String
  fromPkcs8Pem : String → Except String PrivateKey
  toPublicKey : PrivateKey → PublicKey
  /-- `KeyPair::from_pkcs8_pem_and_sign_algo` with `PKCS_RSA_SHA256`. -/
  keyPairFromPem : String → Except String KeyPair
  newParams : List String → Except String CertificateParams
  /-- The PEM text of the certificate with a common name and a serial number. -/
  selfSigned : CertificateParams → String → Nat → KeyPair → Except String String

instance (lib : IdentityLibrary) : DecidableEq lib.PublicKey := lib.publicKeyEq

/-- `fs::read_to_string` on bytes that were read. -/
def ofUtf8 (bytes : Bytes) : Option String := String.fromUTF8? ⟨bytes.toArray⟩

def isAsciiHexDigit (byte : UInt8) : Bool :=
  (48 ≤ byte && byte ≤ 57) || (65 ≤ byte && byte ≤ 70) || (97 ≤ byte && byte ≤ 102)

namespace Identity

def certificateFile : String := "client.pem"
def privateKeyFile : String := "key.pem"
def uniqueIdFile : String := "unique_id"

/-- The identity with its key; requests see only a view of it. -/
structure ClientIdentity (lib : IdentityLibrary) where
  certificatePem : String
  privateKeyPem : String
  privateKey : lib.PrivateKey
  certificateSignature : Bytes
  uniqueId : String

/-- What `OsRng` yields in one call. -/
structure Randomness (lib : IdentityLibrary) where
  key : lib.Entropy
  uniqueIdBytes : Vector UInt8 8

variable (lib : IdentityLibrary)

def fromPem (certificatePem privateKeyPem uniqueId : String) :
    Except ControlError (ClientIdentity lib) := do
  if uniqueId.isEmpty ∨ ¬(utf8 uniqueId).all isAsciiHexDigit then
    throw (.identity "unique ID must be a non-empty hexadecimal string")
  let privateKey ← (lib.fromPkcs8Pem privateKeyPem).mapError .identity
  let certificate ← (lib.certificateFromPem (utf8 certificatePem)).mapError .identity
  let certificatePublicKey ← lib.publicKey certificate
  if certificatePublicKey ≠ lib.toPublicKey privateKey then
    throw (.identity "client certificate and private key do not match")
  match lib.signatureBits certificate with
  | none => throw (.identity "invalid certificate signature bits")
  | some certificateSignature =>
      return { certificatePem, privateKeyPem, privateKey, certificateSignature, uniqueId }

def generate (random : Randomness lib) : Except ControlError (ClientIdentity lib) := do
  let privateKey ← (lib.newPrivateKey random.key).mapError .identity
  let privateKeyPem ← (lib.toPkcs8Pem privateKey).mapError .identity
  let keyPair ← (lib.keyPairFromPem privateKeyPem).mapError .identity
  let parameters ← (lib.newParams []).mapError .identity
  let certificate ←
    (lib.selfSigned parameters "NVIDIA GameStream Client" 0 keyPair).mapError .identity
  let uniqueId := hexEncode random.uniqueIdBytes.toList
  fromPem lib certificate privateKeyPem uniqueId

/-- `Path::exists`, which takes an error for no file. -/
def pathExists (io : Io) (directory : Directory) (name : String) : Bool :=
  (io.tryExists name).isNone && (directory name).isSome

/-- `fs::read_to_string`. -/
def readToString (io : Io) (directory : Directory) (name : String) :
    Except ControlError String :=
  match directory name, io.read name with
  | none, _ | some _, .notFound => .error (.io "No such file or directory (os error 2)")
  | some _, .failed error => .error (.io error)
  | some bytes, .read =>
      match ofUtf8 bytes with
      | some text => .ok text
      | none => .error (.io "stream did not contain valid UTF-8")

def load (io : Io) (directory : Directory) : Except ControlError (ClientIdentity lib) := do
  let certificatePem ← readToString io directory certificateFile
  let privateKeyPem ← readToString io directory privateKeyFile
  let uniqueId ← readToString io directory uniqueIdFile
  fromPem lib certificatePem privateKeyPem (trim uniqueId)

def writeTo (io : Io) (name : String) (bytes : Bytes) : EStateM ControlError Directory Unit :=
  fun directory =>
    match writeFile io directory name bytes with
    | (.ok (), directory) => .ok () directory
    | (.error error, directory) => .error error directory

def createDirAll (io : Io) : EStateM ControlError Directory Unit :=
  match io.createDirAll with
  | some error => throw (.io error)
  | none => pure ()

def create (io : Io) (random : Randomness lib) :
    EStateM ControlError Directory (ClientIdentity lib) := do
  let identity ← MonadExcept.ofExcept (generate lib random)
  createDirAll io
  writeTo io certificateFile (utf8 identity.certificatePem)
  writeTo io privateKeyFile (utf8 identity.privateKeyPem)
  writeTo io uniqueIdFile (utf8 (identity.uniqueId ++ "\n"))
  return identity

/-- Load the identity, creating it when no files exist. -/
def loadOrCreate (io : Io) (random : Randomness lib) :
    EStateM ControlError Directory (ClientIdentity lib) := do
  let directory ← get
  let existing := [certificateFile, privateKeyFile, uniqueIdFile].map (pathExists io directory)
  if existing.all id then MonadExcept.ofExcept (load lib io directory)
  else if existing.any id then
    throw (.identity "client identity is incomplete; refusing to overwrite it")
  else create lib io random

end Identity

end MoonlightScarlet.Control
