import RecordPrivacy.Entropy
import RecordPrivacy.Digest.Sha2

/-!
RSA with optimal asymmetric padding over SHA-256 and an empty label. The padded message is as long
as the modulus: a zero byte, the masked seed, and the masked block that holds the digest of the
label, zeros, a one and the message.
-/
namespace RecordPrivacy.Oaep

structure PublicKey where
  modulus : Nat
  exponent : Nat

structure PrivateKey where
  modulus : Nat
  exponent : Nat

/-- The power of `b` modulo `m`. -/
def powMod (b e m : Nat) : Nat :=
  if e = 0 then 1 % m
  else
    let rest := powMod (b * b % m) (e / 2) m
    if e % 2 = 1 then b * rest % m else rest
termination_by e

/-- The number of bytes that the number takes. -/
def byteSize (n : Nat) : Nat :=
  if n = 0 then 0 else n.log2 / 8 + 1

def digestSize : Nat := 32

/-- The digest of the empty label. -/
def labelDigest : Bytes := Sha2.sha256 []

/-- The mask of the given length that grows from a seed. -/
def mask (seed : Bytes) (length : Nat) : Bytes :=
  ((List.range (length / digestSize + 1)).flatMap fun i =>
    Sha2.sha256 (seed ++ Bytes.ofNatBE 4 i)).take length

/-- The longest message for a modulus of `size` bytes, if there is room for any. -/
def room? (size : Nat) : Option Nat :=
  if size < 2 * digestSize + 2 then none else some (size - 2 * digestSize - 2)

def padWith (size room : Nat) (seed message : Bytes) : Bytes :=
  let block := labelDigest ++ List.replicate (room - message.length) 0 ++ 1 :: message
  let masked := Bytes.xor block (mask seed (size - digestSize - 1))
  0 :: Bytes.xor seed (mask masked digestSize) ++ masked

/-- Strips the zeros and the one that come before the message. -/
def stripZeros? : Bytes → Option Bytes
  | [] => none
  | b :: rest => if b = 0 then stripZeros? rest else if b = 1 then some rest else none

def unpad? (size : Nat) (padded : Bytes) : Option Bytes :=
  let maskedSeed := (padded.drop 1).take digestSize
  let masked := padded.drop (digestSize + 1)
  let seed := Bytes.xor maskedSeed (mask masked digestSize)
  let block := Bytes.xor masked (mask seed (size - digestSize - 1))
  if padded.head? = some 0 ∧ block.take digestSize = labelDigest then
    stripZeros? (block.drop digestSize)
  else none

/-- The encrypted message, unless it is too long for the key. -/
def encrypt (key : PublicKey) (message : Bytes) : Drawn (Option Bytes) := do
  let size := byteSize key.modulus
  match room? size with
  | none => return none
  | some room =>
    if room < message.length then return none
    else
      let seed ← Entropy.draw digestSize
      let padded := padWith size room seed message
      return some (Bytes.ofNatBE size (powMod (Bytes.toNatBE padded) key.exponent key.modulus))

/-- The message of a ciphertext that is exactly as long as the modulus and below it. -/
def decrypt? (key : PrivateKey) (ciphertext : Bytes) : Option Bytes :=
  let size := byteSize key.modulus
  let number := Bytes.toNatBE ciphertext
  if ciphertext.length ≠ size ∨ key.modulus ≤ number ∨ (room? size).isNone then none
  else unpad? size (Bytes.ofNatBE size (powMod number key.exponent key.modulus))

end RecordPrivacy.Oaep
