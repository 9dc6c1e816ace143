import MoonlightScarlet.Control.Xml
/-!
# Pairing cryptography

`Libraries` collects the functions of other crates: the XML parser, the hashes, the
AES block cipher, certificates and RSA.  The hashes have fixed lengths; nothing else
is assumed of them here.
-/

namespace MoonlightScarlet.Control

abbrev Block := Vector UInt8 16

structure Libraries where
  Certificate : Type
  PublicKey : Type
  Signature : Type
  parseXml : XmlParser
  hexError : String → String
  sha256 : Bytes → Vector UInt8 32
  sha1 : Bytes → Vector UInt8 20
  encryptBlock : Block → Block → Block
  decryptBlock : Block → Block → Block
  certificateFromPem : Bytes → Except String Certificate
  /-- `certificate.signature.as_bytes()`. -/
  signatureBits : Certificate → Option Bytes
  subjectPublicKeyInfo : Certificate → Except String Bytes
  publicKeyFromDer : Bytes → Except String PublicKey
  signatureFromBytes : Bytes → Except String Signature
  verify : PublicKey → Bytes → Signature → Bool

/-- The sixteen bytes that a block cipher reads from the front of a buffer. -/
def firstBlock (bytes : Bytes) : Block := Vector.ofFn fun i => bytes.getD i 0

/-- Replace the first `count` blocks by their images. -/
def mapBlocks (cipher : Block → Block) : Nat → Bytes → Bytes
  | 0, bytes => bytes
  | count + 1, bytes =>
      (cipher (firstBlock bytes)).toList ++ mapBlocks cipher count (bytes.drop 16)

/-- `chunks_exact_mut(16)` leaves a shorter rest alone. -/
def mapChunks (cipher : Block → Block) (bytes : Bytes) : Bytes :=
  mapBlocks cipher (bytes.length / 16) bytes

namespace Libraries

variable (lib : Libraries)

def hashForServer (input : Bytes) (serverMajorVersion : UInt32) : Bytes :=
  if serverMajorVersion ≥ 7 then (lib.sha256 input).toList else (lib.sha1 input).toList

def aesEncryptZeroPadded (plaintext : Bytes) (key : Block) : Except ControlError Bytes :=
  if plaintext.isEmpty then .ok []
  else if plaintext.length + 15 < UInt64.size then
    let paddedLength := (plaintext.length + 15) / 16 * 16
    let output := plaintext ++ List.replicate (paddedLength - plaintext.length) 0
    .ok (mapChunks (lib.encryptBlock key) output)
  else .error (.crypto "AES input is too large")

def aesDecrypt (ciphertext : Bytes) (key : Block) : Except ControlError Bytes :=
  if ciphertext.length % 16 ≠ 0 then
    .error (.crypto "AES ciphertext length is not a multiple of 16")
  else .ok (mapChunks (lib.decryptBlock key) ciphertext)

def certificateSignature (certificatePem : Bytes) : Except ControlError Bytes := do
  let certificate ← (lib.certificateFromPem certificatePem).mapError .crypto
  match lib.signatureBits certificate with
  | some signature => return signature
  | none => throw (.crypto "invalid certificate signature bits")

def publicKey (certificate : lib.Certificate) : Except ControlError lib.PublicKey := do
  let encoded ← (lib.subjectPublicKeyInfo certificate).mapError .crypto
  (lib.publicKeyFromDer encoded).mapError .crypto

def verifySignature (certificatePem message signature : Bytes) : Except ControlError Unit := do
  let certificate ← (lib.certificateFromPem certificatePem).mapError .crypto
  let verifyingKey ← lib.publicKey certificate
  let signature ← (lib.signatureFromBytes signature).mapError .crypto
  if lib.verify verifyingKey message signature then return ()
  else throw (.pairing "server signature verification failed")

end Libraries

end MoonlightScarlet.Control
