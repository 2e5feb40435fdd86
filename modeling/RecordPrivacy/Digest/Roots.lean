/-!
Integer roots, and the numbers that digests take from them: the leading bits of the fractional parts
of the square or cube roots of the first primes.
-/
namespace RecordPrivacy.Digest

/-- The largest number below `found + 2 ^ bits` and at least `found` whose power is at most `n`. -/
def rootFrom (power n : Nat) : (bits found : Nat) → Nat
  | 0, found => found
  | bits + 1, found =>
    let next := found + Nat.pow 2 bits
    rootFrom power n bits (if Nat.pow next power ≤ n then next else found)

/-- The first `width` bits of the fractional part of a root of a number below 512. -/
def rootFraction (power width n : Nat) : Nat :=
  rootFrom power (n * Nat.pow 2 (power * width)) (width + 9) 0 % Nat.pow 2 width

def isPrime (n : Nat) : Bool :=
  2 ≤ n && (List.range n).all fun d => d < 2 || n % d != 0

/-- The primes below 410, of which there are eighty. -/
def primes : List Nat :=
  (List.range 410).filter isPrime

end RecordPrivacy.Digest
