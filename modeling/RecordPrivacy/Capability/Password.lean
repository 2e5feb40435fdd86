import RecordPrivacy.Capability.Error
import RecordPrivacy.Entropy
import RecordPrivacy.Digest.Argon2
import RecordPrivacy.Digest.Bcrypt
import RecordPrivacy.Text.Base64

/-!
Salted password digests: Argon2id and bcrypt. A digest is made with a fresh salt and written down
with everything that is needed to check a candidate against it.
-/
namespace RecordPrivacy

structure Argon2Settings where
  /-- Passes over the memory. -/
  time : Nat := 1
  /-- Memory in kibibytes. -/
  memory : Nat := 65536
  /-- Lanes. -/
  threads : Nat := 4
  /-- Length of the digest in bytes. -/
  keySize : Nat := 32
  /-- Length of the salt in bytes. -/
  saltSize : Nat := 16
  deriving DecidableEq, Repr

inductive PasswordScheme where
  | argon2 (settings : Argon2Settings)
  | bcrypt (cost : Nat)

namespace PasswordScheme

def defaultCost : Nat := 12

/-- Settings are words of 32 bits, and so is the least memory that the lanes need. -/
def argon2Fault? (s : Argon2Settings) : Option String :=
  if s.memory < 8 ∨ s.memory < 8 * s.threads % Nat.pow 2 32 then some "memory cost is too small"
  else if s.time < 1 then some "time cost is too small"
  else if s.threads < 1 then some "not enough threads"
  else if 0xFFFFFF < s.threads then some "too many threads"
  else if s.keySize < 4 then some "output is too short"
  else if 0xFFFFFFFF < s.keySize then some "output is too long"
  else if 48 < s.saltSize then some "salt: invalid Base64 length"
  else if s.saltSize < 8 then some "salt invalid: value to short"
  else if s.keySize < 10 then some "output size too short, expected at least 10 bytes"
  else if 64 < s.keySize then some "output size too long, expected at most 64 bytes"
  else none

/-- Why no digest can be made with these settings; the first reason counts. -/
def fault? : PasswordScheme → Option String
  | .argon2 settings => argon2Fault? settings
  | .bcrypt cost =>
    if cost < 4 ∨ 31 < cost then some s!"Cost needs to be between 4 and 31, got {cost}" else none

def saltSize : PasswordScheme → Nat
  | .argon2 settings => settings.saltSize
  | .bcrypt _ => Bcrypt.saltSize

def derive : PasswordScheme → (salt password : Bytes) → Bytes
  | .argon2 s, salt, password =>
    Argon2.derive ⟨s.time, s.memory, s.threads, s.keySize⟩ password salt
  | .bcrypt cost, salt, password => Bcrypt.derive cost salt password

end PasswordScheme

structure PasswordDigest where
  scheme : PasswordScheme
  salt : Bytes
  digest : Bytes

namespace PasswordDigest

def unpadded (bytes : Bytes) : String :=
  String.ofList ((Base64.encodeSymbols bytes).filter (· ≠ '='))

def twoDigits (n : Nat) : String :=
  if n < 10 then s!"0{n}" else s!"{n}"

/-- What the written digest says about how it was made. -/
def head (d : PasswordDigest) : String :=
  match d.scheme with
  | .argon2 s => s!"$argon2id$v=19$m={s.memory},t={s.time},p={s.threads}"
  | .bcrypt cost => "$2b$" ++ twoDigits cost

/-- The parts of the written digest that differ from one digest to the next. -/
def parts (d : PasswordDigest) : List String :=
  match d.scheme with
  | .argon2 _ => [unpadded d.salt, unpadded d.digest]
  | .bcrypt _ => [String.ofList (Bcrypt.encodeSymbols d.salt ++ Bcrypt.encodeSymbols d.digest)]

def text (d : PasswordDigest) : String :=
  d.head ++ String.join (d.parts.map ("$" ++ ·))

/-- Whether the candidate gives the same digest under the same salt. -/
def verifies (d : PasswordDigest) (candidate : Bytes) : Bool :=
  d.scheme.derive d.salt candidate == d.digest

end PasswordDigest

def PasswordScheme.hash (scheme : PasswordScheme) (password : Bytes) :
    Drawn (Except CapabilityError PasswordDigest) := do
  match scheme.fault? with
  | some reason => return .error (.hashFailed reason)
  | none =>
    let salt ← Entropy.draw scheme.saltSize
    return .ok ⟨scheme, salt, scheme.derive salt password⟩

end RecordPrivacy
