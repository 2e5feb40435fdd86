import RecordPrivacy.Cipher.Aes
import RecordPrivacy.Cipher.Aead

/-!
Galois/counter mode over the AES block cipher: the message is combined with a key stream, the blocks
of the result are hashed in the field of 2^128 elements, and the hash, masked by one more block of
the stream, is the tag.
-/
namespace RecordPrivacy.Gcm

/-! ### The hash -/

/-- Multiplies by the indeterminate; a block's first bit is its lowest coefficient. -/
def step (x : BitVec 128) : BitVec 128 :=
  if x.getLsbD 0 then (x >>> 1) ^^^ (0xE1#128 <<< 120) else x >>> 1

/-- The product of two field elements, by the lowest `bits` bits of the second. -/
def mulFrom (x : BitVec 128) : (bits : Nat) → BitVec 128 → BitVec 128
  | 0, _ => 0
  | bits + 1, y => (if y.getMsbD 0 then x else 0) ^^^ mulFrom (step x) bits (y <<< 1)

def mul (x y : BitVec 128) : BitVec 128 :=
  mulFrom x 128 y

/-- A block of at most sixteen bytes as a field element, filled up with zeros. -/
def element (block : Bytes) : BitVec 128 :=
  BitVec.ofNat 128 (Bytes.toNatBE (block ++ List.replicate (16 - block.length) 0))

def hashBlocks (h : BitVec 128) (blocks : List Bytes) : BitVec 128 :=
  blocks.foldl (fun y block => mul (y ^^^ element block) h) 0

/-! ### The key stream -/

/-- The block that counts `n` under the nonce. -/
def counterBlock (nonce : Bytes) (n : Nat) : Bytes :=
  nonce ++ Bytes.ofNatBE 4 n

/-- The message combined with the key stream, from counter `n` on. -/
def streamFrom (keys : List Bytes) (nonce : Bytes) (n : Nat) : List Bytes → Bytes
  | [] => []
  | block :: rest =>
    Bytes.xor block (Aes.encryptBlock keys (counterBlock nonce n)) ++
      streamFrom keys nonce (n + 1) rest

def stream (keys : List Bytes) (nonce message : Bytes) : Bytes :=
  streamFrom keys nonce 2 (Bytes.chunks 16 message)

/-- The tag of a ciphertext without associated data. -/
def tag (keys : List Bytes) (nonce ciphertext : Bytes) : Bytes :=
  let h := element (Aes.encryptBlock keys (List.replicate 16 0))
  let lengths := Bytes.ofNatBE 16 (8 * ciphertext.length)
  let hash := hashBlocks h (Bytes.chunks 16 ciphertext ++ [lengths])
  Bytes.xor (Bytes.ofNatBE 16 hash.toNat) (Aes.encryptBlock keys (counterBlock nonce 1))

/-! ### Sealing and opening -/

def encrypt (key nonce plaintext : Bytes) : Option Bytes :=
  if Aead.plaintextLimit < plaintext.length then none
  else
    let keys := Aes.roundKeys key
    let ciphertext := stream keys nonce plaintext
    some (ciphertext ++ tag keys nonce ciphertext)

def decrypt (key nonce sealed : Bytes) : Option Bytes :=
  if sealed.length < Aead.tagSize ∨ Aead.plaintextLimit + Aead.tagSize < sealed.length then none
  else
    let keys := Aes.roundKeys key
    let size := sealed.length - Aead.tagSize
    let ciphertext := sealed.take size
    if tag keys nonce ciphertext = sealed.drop size then some (stream keys nonce ciphertext)
    else none

def aead : Aead := ⟨encrypt, decrypt⟩

end RecordPrivacy.Gcm
