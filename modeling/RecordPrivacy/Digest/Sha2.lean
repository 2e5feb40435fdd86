import RecordPrivacy.Bytes
import RecordPrivacy.Digest.Roots

/-!
The SHA-2 digests on words of 32 and of 64 bits. Both follow one scheme; a `Shape` holds what
differs: the number of rounds, the rotations, and the constants that the word size gives.
-/
namespace RecordPrivacy.Sha2

/-- The two rotations and the last step, a rotation or a shift, of each mixing function. -/
structure Shape (w : Nat) where
  rounds : Nat
  initial : List (BitVec w)
  upper0 : Nat × Nat × Nat
  upper1 : Nat × Nat × Nat
  lower0 : Nat × Nat × Nat
  lower1 : Nat × Nat × Nat

/-- The first eight primes give the initial state by their square roots. -/
def initialState (w : Nat) : List (BitVec w) :=
  (Digest.primes.take 8).map fun p => BitVec.ofNat w (Digest.rootFraction 2 w p)

/-- The first primes give the round constants by their cube roots. -/
def roundConstants (w rounds : Nat) : List (BitVec w) :=
  (Digest.primes.take rounds).map fun p => BitVec.ofNat w (Digest.rootFraction 3 w p)

def shape256 : Shape 32 where
  rounds := 64
  initial := initialState 32
  upper0 := (2, 13, 22)
  upper1 := (6, 11, 25)
  lower0 := (7, 18, 3)
  lower1 := (17, 19, 10)

def shape512 : Shape 64 where
  rounds := 80
  initial := initialState 64
  upper0 := (28, 34, 39)
  upper1 := (14, 18, 41)
  lower0 := (1, 8, 7)
  lower1 := (19, 61, 6)

def constants256 : List (BitVec 32) := roundConstants 32 64

def constants512 : List (BitVec 64) := roundConstants 64 80

section
variable {w : Nat}

def upper (r : Nat × Nat × Nat) (x : BitVec w) : BitVec w :=
  x.rotateRight r.1 ^^^ x.rotateRight r.2.1 ^^^ x.rotateRight r.2.2

def lower (r : Nat × Nat × Nat) (x : BitVec w) : BitVec w :=
  x.rotateRight r.1 ^^^ x.rotateRight r.2.1 ^^^ (x >>> r.2.2)

/-- The bytes of a block as words, most significant byte first. -/
def blockWords (block : Bytes) : List (BitVec w) :=
  (Bytes.chunks (w / 8) block).map fun bytes => BitVec.ofNat w (Bytes.toNatBE bytes)

/-- The next word of the schedule, from the sixteen before it, the latest first. -/
def nextWord (shape : Shape w) (latest : List (BitVec w)) : BitVec w :=
  lower shape.lower1 (latest.getD 1 0) + latest.getD 6 0 +
    lower shape.lower0 (latest.getD 14 0) + latest.getD 15 0

/-- Extends the schedule, held latest word first, by `count` words. -/
def extend (shape : Shape w) : (count : Nat) → List (BitVec w) → List (BitVec w)
  | 0, latest => latest
  | count + 1, latest => extend shape count (nextWord shape latest :: latest)

def schedule (shape : Shape w) (block : Bytes) : List (BitVec w) :=
  (extend shape (shape.rounds - 16) (blockWords block).reverse).reverse

/-- One round, on the eight words of the state. -/
def round (shape : Shape w) : List (BitVec w) → BitVec w × BitVec w → List (BitVec w)
  | [a, b, c, d, e, f, g, h], (constant, word) =>
    let choice := (e &&& f) ^^^ (~~~e &&& g)
    let majority := (a &&& b) ^^^ (a &&& c) ^^^ (b &&& c)
    let t1 := h + upper shape.upper1 e + choice + constant + word
    let t2 := upper shape.upper0 a + majority
    [t1 + t2, a, b, c, d + t1, e, f, g]
  | state, _ => state

def compress (shape : Shape w) (constants : List (BitVec w)) (state : List (BitVec w))
    (block : Bytes) : List (BitVec w) :=
  let mixed := (constants.zip (schedule shape block)).foldl (round shape) state
  List.zipWith (· + ·) state mixed

/-- A one bit, zeros up to the last `w / 4` bytes of a block, and there the length in bits. -/
def padding (w length : Nat) : Bytes :=
  let block := 2 * w
  let tail := w / 4
  let zeros := (block - (length + 1 + tail) % block) % block
  0x80 :: List.replicate zeros 0 ++ Bytes.ofNatBE tail (8 * length)

def digest (shape : Shape w) (constants : List (BitVec w)) (message : Bytes) : Bytes :=
  let blocks := Bytes.chunks (2 * w) (message ++ padding w message.length)
  let state := blocks.foldl (compress shape constants) shape.initial
  state.flatMap fun word => Bytes.ofNatBE (w / 8) word.toNat

end

def sha256 (message : Bytes) : Bytes :=
  digest shape256 constants256 message

def sha512 (message : Bytes) : Bytes :=
  digest shape512 constants512 message

end RecordPrivacy.Sha2
