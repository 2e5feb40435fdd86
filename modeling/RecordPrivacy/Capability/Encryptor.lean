import RecordPrivacy.Capability.Error
import RecordPrivacy.Cipher.Gcm
import RecordPrivacy.Cipher.Oaep

/-!
Encryptors. Encryption may draw on the supply of randomness, decryption is a function of the
ciphertext.

The built-in symmetric ones are written over any scheme of authenticated encryption. A sealed
message is its nonce followed by the sealed bytes. An envelope holds a fresh data key, sealed under
the master key, before the message that the data key seals: two bytes for the length of the sealed
data key, the sealed data key, the sealed message.
-/
namespace RecordPrivacy

structure Encryptor where
  encrypt : Bytes → Drawn (Except CapabilityError Bytes)
  decrypt : Bytes → Except CapabilityError Bytes

/-- Key material of 16, 24 or 32 bytes. -/
structure SymmetricKey where
  bytes : Bytes
  size_ok : bytes.length = 16 ∨ bytes.length = 24 ∨ bytes.length = 32

def SymmetricKey.ofBytes (bytes : Bytes) : Except CapabilityError SymmetricKey :=
  if h : bytes.length = 16 ∨ bytes.length = 24 ∨ bytes.length = 32 then .ok ⟨bytes, h⟩
  else .error (.invalidKeySize bytes.length)

def SymmetricKey.bits (key : SymmetricKey) : Nat :=
  8 * key.bytes.length

namespace Aead

/-! ### Messages with their nonce in front -/

def sealMessage (aead : Aead) (key plaintext : Bytes) : Drawn (Except CapabilityError Bytes) := do
  let nonce ← Entropy.draw nonceSize
  match aead.encrypt key nonce plaintext with
  | some ciphertext => return .ok (nonce ++ ciphertext)
  | none => return .error .encryptionFailed

def openMessage (aead : Aead) (key message : Bytes) : Except CapabilityError Bytes :=
  if message.length < nonceSize then .error .ciphertextTooShort
  else
    match aead.decrypt key (message.take nonceSize) (message.drop nonceSize) with
    | some plaintext => .ok plaintext
    | none => .error .decryptionFailed

/-! ### Envelopes -/

def dataKeySize : Nat := 32

/-- The largest length that the two length bytes can hold. -/
def lengthLimit : Nat := 65535

def sealEnvelope (aead : Aead) (master : SymmetricKey) (plaintext : Bytes) :
    Drawn (Except CapabilityError Bytes) := do
  let dataKey ← Entropy.draw dataKeySize
  match ← aead.sealMessage dataKey plaintext with
  | .error e => return .error e
  | .ok data =>
    match ← aead.sealMessage master.bytes dataKey with
    | .error e => return .error e
    | .ok wrapped =>
      if lengthLimit < wrapped.length then return .error .encryptionFailed
      else return .ok (Bytes.ofNatBE 2 wrapped.length ++ wrapped ++ data)

/-- The parts of an envelope: the sealed data key and the sealed message. -/
def splitEnvelope (envelope : Bytes) : Option (Bytes × Bytes) :=
  match envelope with
  | high :: low :: rest =>
    let size := Bytes.toNatBE [high, low]
    if rest.length < size then none else some (rest.take size, rest.drop size)
  | _ => none

def openEnvelope (aead : Aead) (master : SymmetricKey) (envelope : Bytes) :
    Except CapabilityError Bytes :=
  match splitEnvelope envelope with
  | none => .error .ciphertextTooShort
  | some (wrapped, data) =>
    match aead.openMessage master.bytes wrapped with
    | .error e => .error e
    | .ok dataKey =>
      if dataKey.length = dataKeySize then aead.openMessage dataKey data
      else .error .decryptionFailed

end Aead

namespace Encryptor

def aesOver (aead : Aead) (key : SymmetricKey) : Encryptor where
  encrypt := aead.sealMessage key.bytes
  decrypt := aead.openMessage key.bytes

def envelopeOver (aead : Aead) (master : SymmetricKey) : Encryptor where
  encrypt := aead.sealEnvelope master
  decrypt := aead.openEnvelope master

def aes : SymmetricKey → Encryptor := aesOver Gcm.aead

def envelope : SymmetricKey → Encryptor := envelopeOver Gcm.aead

/-- Either half of the key pair may be missing: with the public half alone one can encrypt only,
with the private half alone decrypt only. -/
def rsa (publicKey : Option Oaep.PublicKey) (privateKey : Option Oaep.PrivateKey) : Encryptor where
  encrypt plaintext :=
    match publicKey with
    | none => return .error (.missingKey "public")
    | some key => do
      match ← Oaep.encrypt key plaintext with
      | some ciphertext => return .ok ciphertext
      | none => return .error (.other "message too long")
  decrypt ciphertext :=
    match privateKey with
    | none => .error (.missingKey "private")
    | some key =>
      match Oaep.decrypt? key ciphertext with
      | some plaintext => .ok plaintext
      | none => .error .decryptionFailed

/-- The built-in encryptor that key material alone determines; an RSA key has more structure. -/
def ofKey (algorithm : EncryptionAlgorithm) (key : Bytes) : Except CapabilityError Encryptor :=
  match algorithm with
  | .aes => (SymmetricKey.ofBytes key).map aes
  | .envelope => (SymmetricKey.ofBytes key).map envelope
  | .rsa => .error (.unsupportedKey .rsa)

/-! ### What may be shown of an encryptor: the size of its key, never the key -/

def describeAes (key : SymmetricKey) : String :=
  s!"AesEncryptor \x7b bits: {key.bits}, .. \x7d"

def describeEnvelope (master : SymmetricKey) : String :=
  s!"EnvelopeEncryptor \x7b master_bits: {master.bits}, .. \x7d"

def describeRsa (publicKey : Option Oaep.PublicKey) (privateKey : Option Oaep.PrivateKey) :
    String :=
  s!"RsaEncryptor \x7b has_public: {publicKey.isSome}, has_private: {privateKey.isSome} \x7d"

end Encryptor

end RecordPrivacy
