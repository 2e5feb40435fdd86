import RecordPrivacy.Bytes
import RecordPrivacy.Digest.Roots

/-!
The BLAKE2b digest without a key, of one to sixty-four bytes.
-/
namespace RecordPrivacy.Blake2b

/-- The same starting words as the wider SHA-2. -/
def initial : Array UInt64 :=
  ((Digest.primes.take 8).map fun p => UInt64.ofNat (Digest.rootFraction 2 64 p)).toArray

/-- The order in which each round takes the words of the message; it repeats after ten rounds. -/
def orders : Array (List Nat) := #[
  [0, 1, 2, 3, 4, 5, 6, 7, 8, 9, 10, 11, 12, 13, 14, 15],
  [14, 10, 4, 8, 9, 15, 13, 6, 1, 12, 0, 2, 11, 7, 5, 3],
  [11, 8, 12, 0, 5, 2, 15, 13, 10, 14, 3, 6, 7, 1, 9, 4],
  [7, 9, 3, 1, 13, 12, 11, 14, 2, 6, 5, 10, 4, 0, 15, 8],
  [9, 0, 5, 7, 2, 4, 10, 15, 14, 1, 11, 12, 6, 8, 3, 13],
  [2, 12, 6, 10, 0, 11, 8, 3, 4, 13, 7, 5, 15, 14, 1, 9],
  [12, 5, 1, 15, 14, 13, 4, 10, 0, 7, 6, 3, 9, 2, 8, 11],
  [13, 11, 7, 14, 12, 1, 3, 9, 5, 0, 15, 4, 8, 6, 2, 10],
  [6, 15, 14, 9, 11, 3, 0, 8, 12, 2, 13, 7, 1, 4, 10, 5],
  [10, 2, 8, 4, 7, 6, 1, 5, 15, 11, 9, 14, 3, 12, 13, 0]]

def rotateRight (x : UInt64) (count : UInt64) : UInt64 :=
  (x >>> count) ||| (x <<< (64 - count))

/-- The four words of every mixing step of a round: the columns, then the diagonals. -/
def steps : List (Nat × Nat × Nat × Nat) :=
  [(0, 4, 8, 12), (1, 5, 9, 13), (2, 6, 10, 14), (3, 7, 11, 15),
    (0, 5, 10, 15), (1, 6, 11, 12), (2, 7, 8, 13), (3, 4, 9, 14)]

def mix (v : Array UInt64) (place : Nat × Nat × Nat × Nat) (x y : UInt64) : Array UInt64 :=
  let (i, j, k, l) := place
  let a := v.getD i 0 + v.getD j 0 + x
  let d := rotateRight (v.getD l 0 ^^^ a) 32
  let c := v.getD k 0 + d
  let b := rotateRight (v.getD j 0 ^^^ c) 24
  let a := a + b + y
  let d := rotateRight (d ^^^ a) 16
  let c := c + d
  let b := rotateRight (b ^^^ c) 63
  (((v.setIfInBounds i a).setIfInBounds j b).setIfInBounds k c).setIfInBounds l d

/-- The mixing steps of one round, each with the next two words in the round's order. -/
def roundSteps (message : Array UInt64) :
    List (Nat × Nat × Nat × Nat) → List Nat → Array UInt64 → Array UInt64
  | place :: places, x :: y :: order, v =>
    roundSteps message places order (mix v place (message.getD x 0) (message.getD y 0))
  | _, _, v => v

def words (block : Bytes) : Array UInt64 :=
  ((Bytes.chunks 8 block).map fun bytes => UInt64.ofNat (Bytes.toNatLE bytes)).toArray

/-- Takes in one block of 128 bytes; `count` bytes of the message have then been taken in. -/
def compress (state : Array UInt64) (block : Bytes) (count : Nat) (last : Bool) : Array UInt64 :=
  let message := words block
  let low := UInt64.ofNat count
  let high := UInt64.ofNat (count / Nat.pow 2 64)
  let v := state ++ initial
  let v := v.setIfInBounds 12 (v.getD 12 0 ^^^ low)
  let v := v.setIfInBounds 13 (v.getD 13 0 ^^^ high)
  let v := if last then v.setIfInBounds 14 (~~~ (v.getD 14 0)) else v
  let v := (List.range 12).foldl
    (fun v r => roundSteps message steps (orders.getD (r % 10) []) v) v
  (Array.range 8).map fun i => state.getD i 0 ^^^ v.getD i 0 ^^^ v.getD (i + 8) 0

/-- Takes in the blocks, of which the last is filled up with zeros. -/
def absorb (state : Array UInt64) (count : Nat) : List Bytes → Array UInt64
  | [] => compress state (List.replicate 128 0) count true
  | [block] =>
    compress state (block ++ List.replicate (128 - block.length) 0) (count + block.length) true
  | block :: rest => absorb (compress state block (count + block.length) false)
      (count + block.length) rest

def digest (size : Nat) (message : Bytes) : Bytes :=
  let parameters : UInt64 := 0x01010000 ^^^ UInt64.ofNat size
  let state := initial.setIfInBounds 0 (initial.getD 0 0 ^^^ parameters)
  let final := absorb state 0 (Bytes.chunks 128 message)
  (final.toList.flatMap fun word => Bytes.ofNatLE 8 word.toNat).take size

end RecordPrivacy.Blake2b
