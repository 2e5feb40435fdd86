import RecordPrivacy.Text.Utf8

/-!
Base64 with the standard alphabet, in its canonical form only: the last group is padded to four
symbols, and the bits that its symbols carry beyond the last byte are zero. Reading reports the
first fault with its byte offset.
-/
namespace RecordPrivacy.Base64

inductive Fault where
  | symbol (value : UInt8) (offset : Nat)
  | length (count : Nat)
  | lastSymbol (value : UInt8) (offset : Nat)
  | padding
  deriving DecidableEq, Repr

def Fault.message : Fault → String
  | .symbol value offset => s!"Invalid symbol {value.toNat}, offset {offset}."
  | .length count => s!"Invalid input length: {count}"
  | .lastSymbol value offset => s!"Invalid last symbol {value.toNat}, offset {offset}."
  | .padding => "Invalid padding"

/-! ### Symbols -/

/-- The symbol of a number below 64. -/
def symbol (n : Nat) : Char :=
  if n < 26 then Char.ofNat (65 + n)
  else if n < 52 then Char.ofNat (97 + (n - 26))
  else if n < 62 then Char.ofNat (48 + (n - 52))
  else if n = 62 then '+'
  else '/'

/-- The number that a byte stands for, if it is a symbol of the alphabet. -/
def sextet? (b : UInt8) : Option Nat :=
  let n := b.toNat
  if 65 ≤ n ∧ n ≤ 90 then some (n - 65)
  else if 97 ≤ n ∧ n ≤ 122 then some (n - 71)
  else if 48 ≤ n ∧ n ≤ 57 then some (n + 4)
  else if n = 43 then some 62
  else if n = 47 then some 63
  else none

def pad : UInt8 := 61

/-! ### Writing -/

def encodeSymbols : Bytes → List Char
  | [] => []
  | [a] =>
    let n := a.toNat * 16
    [symbol (n / 64), symbol (n % 64), '=', '=']
  | [a, b] =>
    let n := a.toNat * 1024 + b.toNat * 4
    [symbol (n / 4096), symbol (n / 64 % 64), symbol (n % 64), '=']
  | a :: b :: c :: rest =>
    let n := a.toNat * 65536 + b.toNat * 256 + c.toNat
    symbol (n / 262144) :: symbol (n / 4096 % 64) :: symbol (n / 64 % 64) :: symbol (n % 64) ::
      encodeSymbols rest

def encode (bytes : Bytes) : String :=
  String.ofList (encodeSymbols bytes)

/-! ### Reading -/

def sextet (b : UInt8) (offset : Nat) : Except Fault Nat :=
  match sextet? b with
  | some n => .ok n
  | none => .error (.symbol b offset)

/-- Four symbols, none of them padding. -/
def decodeQuad (offset : Nat) (a b c d : UInt8) : Except Fault Bytes := do
  let a ← sextet a offset
  let b ← sextet b (offset + 1)
  let c ← sextet c (offset + 2)
  let d ← sextet d (offset + 3)
  let n := a * 262144 + b * 4096 + c * 64 + d
  return [UInt8.ofNat (n / 65536), UInt8.ofNat (n / 256), UInt8.ofNat n]

/-- The symbols of the last group up to its padding, each with its value, and the number of pads.
A pad may not come before the third place, and nothing but pads may follow one. -/
def lastGroup (offset : Nat) :
    (place pads : Nat) → Bytes → Except Fault (List (UInt8 × Nat) × Nat)
  | _, pads, [] => .ok ([], pads)
  | place, pads, b :: rest =>
    if b = pad then
      if place < 2 then .error (.symbol pad (offset + place))
      else lastGroup offset (place + 1) (pads + 1) rest
    else if pads ≠ 0 then .error (.symbol pad (offset + place - pads))
    else do
      let n ← sextet b (offset + place)
      let (symbols, pads) ← lastGroup offset (place + 1) pads rest
      return ((b, n) :: symbols, pads)

/-- The last group, of at most four bytes and not empty. -/
def decodeLast (offset : Nat) (group : Bytes) : Except Fault Bytes := do
  let (symbols, pads) ← lastGroup offset 0 0 group
  match symbols with
  | [] => throw (.length offset)
  | [_] => throw (.length (offset + 1))
  | [(_, a), (last, b)] =>
    if pads ≠ 2 then throw .padding
    if b % 16 ≠ 0 then throw (.lastSymbol last (offset + 1))
    return [UInt8.ofNat (a * 4 + b / 16)]
  | [(_, a), (_, b), (last, c)] =>
    if pads ≠ 1 then throw .padding
    if c % 4 ≠ 0 then throw (.lastSymbol last (offset + 2))
    let n := a * 1024 + b * 16 + c / 4
    return [UInt8.ofNat (n / 256), UInt8.ofNat n]
  | (_, a) :: (_, b) :: (_, c) :: (_, d) :: _ =>
    let n := a * 262144 + b * 4096 + c * 64 + d
    return [UInt8.ofNat (n / 65536), UInt8.ofNat (n / 256), UInt8.ofNat n]

def decodeGroups (offset : Nat) : Bytes → Except Fault Bytes
  | [] => .ok []
  | a :: b :: c :: d :: e :: rest => do
    let first ← decodeQuad offset a b c d
    let others ← decodeGroups (offset + 4) (e :: rest)
    return first ++ others
  | group => decodeLast offset group

/-- A lone last byte outside the alphabet is reported before anything else. -/
def decodeBytes (bytes : Bytes) : Except Fault Bytes :=
  match bytes.getLast? with
  | some b =>
    if bytes.length % 4 = 1 ∧ b ≠ pad ∧ sextet? b = none then
      .error (.symbol b (bytes.length - 1))
    else decodeGroups 0 bytes
  | none => .ok []

def decode (text : String) : Except Fault Bytes :=
  decodeBytes (Utf8.encode text)

end RecordPrivacy.Base64
