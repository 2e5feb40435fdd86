/-!
Byte strings, and the two ways they are written down: as lower-case hexadecimal text, two digits a
byte, and as numbers, most significant byte first.
-/
namespace RecordPrivacy

abbrev Bytes := List UInt8

namespace Bytes

/-! ### Hexadecimal text -/

def hexDigit (n : Nat) : Char :=
  if n < 10 then Char.ofNat (48 + n) else Char.ofNat (87 + n)

def hexByte (b : UInt8) : List Char :=
  [hexDigit (b.toNat / 16), hexDigit (b.toNat % 16)]

/-- Two lower-case digits a byte. -/
def toHex (bytes : Bytes) : String :=
  String.ofList (bytes.flatMap hexByte)

def hexValue? (c : Char) : Option Nat :=
  if '0' ≤ c ∧ c ≤ '9' then some (c.toNat - 48)
  else if 'a' ≤ c ∧ c ≤ 'f' then some (c.toNat - 87)
  else if 'A' ≤ c ∧ c ≤ 'F' then some (c.toNat - 55)
  else none

def ofHexDigits? : List Char → Option Bytes
  | [] => some []
  | [_] => none
  | high :: low :: rest => do
    let h ← hexValue? high
    let l ← hexValue? low
    let bytes ← ofHexDigits? rest
    return UInt8.ofNat (16 * h + l) :: bytes

/-- Reads digits of either case; an odd number of digits is refused. -/
def ofHex? (text : String) : Option Bytes :=
  ofHexDigits? text.toList

/-! ### Numbers, most significant byte first -/

/-- The number that the bytes spell. -/
def toNatBE (bytes : Bytes) : Nat :=
  bytes.foldl (fun n b => 256 * n + b.toNat) 0

/-- The last `width` bytes of the number's spelling, padded with zeros in front. -/
def ofNatBE : (width : Nat) → Nat → Bytes
  | 0, _ => []
  | width + 1, n => ofNatBE width (n / 256) ++ [UInt8.ofNat n]

@[simp] theorem length_ofNatBE (width n : Nat) : (ofNatBE width n).length = width := by
  induction width generalizing n with
  | zero => rfl
  | succ width ih => simp [ofNatBE, ih]

/-- The first `width` bytes of the number's spelling, least significant first. -/
def ofNatLE : (width : Nat) → Nat → Bytes
  | 0, _ => []
  | width + 1, n => UInt8.ofNat n :: ofNatLE width (n / 256)

def toNatLE : Bytes → Nat
  | [] => 0
  | b :: rest => b.toNat + 256 * toNatLE rest

/-! ### Bytewise combination -/

/-- Exclusive or, byte by byte, as far as both go. -/
def xor (a b : Bytes) : Bytes :=
  List.zipWith (· ^^^ ·) a b

/-- Consecutive groups of `size` bytes, the last perhaps shorter; a size of zero counts as one. -/
def chunks (size : Nat) : Bytes → List Bytes
  | [] => []
  | b :: rest => (b :: rest.take (size - 1)) :: chunks size (rest.drop (size - 1))
termination_by bytes => bytes.length
decreasing_by
  simp only [List.length_drop, List.length_cons]
  omega

end Bytes

end RecordPrivacy
