import RecordPrivacy.Capability.Password
import RecordPrivacy.Digest.Sha2

/-!
Hashers turn bytes into printable text that cannot be turned back. The salted ones draw on the
supply of randomness and answer differently every time.
-/
namespace RecordPrivacy

structure Hasher where
  hash : Bytes → Drawn (Except CapabilityError String)

namespace Hasher

def sha256 : Hasher where
  hash data := return .ok (Bytes.toHex (Sha2.sha256 data))

def sha512 : Hasher where
  hash data := return .ok (Bytes.toHex (Sha2.sha512 data))

def password (scheme : PasswordScheme) : Hasher where
  hash data := do return (← scheme.hash data).map PasswordDigest.text

def builtin : HashAlgorithm → Hasher
  | .argon2 => password (.argon2 {})
  | .bcrypt => password (.bcrypt PasswordScheme.defaultCost)
  | .sha256 => sha256
  | .sha512 => sha512

end Hasher

end RecordPrivacy
