import RecordPrivacy.Capability.Identifier

/-!
What can go wrong inside a capability or an override, and the one place where it is put into words.
-/
namespace RecordPrivacy

inductive CapabilityError where
  | invalidKeySize (size : Nat)
  | ciphertextTooShort
  | decryptionFailed
  | encryptionFailed
  | missingKey (which : String)
  | notRegistered (kind : CapabilityKind) (parameter : String)
  | hashFailed (reason : String)
  | invalidFormat (format : MaskFormat) (reason : String)
  | unsupportedKey (algorithm : EncryptionAlgorithm)
  | other (text : String)
  deriving DecidableEq, Repr

def CapabilityError.message : CapabilityError → String
  | .invalidKeySize size => s!"invalid key size: must be 16, 24, or 32 bytes, got {size}"
  | .ciphertextTooShort => "ciphertext too short"
  | .decryptionFailed => "decryption failed"
  | .encryptionFailed => "encryption failed"
  | .missingKey which => s!"{which} key required"
  | .notRegistered kind parameter => s!"no {kind.text} registered for {Text.quoted parameter}"
  | .hashFailed reason => s!"hash failed: {reason}"
  | .invalidFormat format reason => s!"invalid {format.text} value: {reason}"
  | .unsupportedKey algorithm =>
    s!"{algorithm.text} encryptors cannot be built from a symmetric key"
  | .other text => text

end RecordPrivacy
