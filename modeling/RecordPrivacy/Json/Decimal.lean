/-!
Floats as text: the fewest digits that read back as the same float, and among those the nearest. The
point is written out for exponents from -5 to 16, and an integer keeps one zero behind it; other
floats have an exponent, which always has a sign.

A float is `m * 2 ^ q` and stands for every real between its midpoints with its neighbours, the
midpoints included if `m` is even. For one digit, two, and so on, the two neighbours of the float
among the decimals of that length are tried.
-/
namespace RecordPrivacy.Json

/-- A positive finite float: its value is `m * 2 ^ (q - 1074)`. The float below it is half as far
away when `m` is the least of its exponent. -/
structure Magnitude where
  m : Nat
  q : Nat

def magnitude (bits : UInt64) : Magnitude :=
  let fraction := bits.toNat % Nat.pow 2 52
  let exponent := bits.toNat / Nat.pow 2 52 % 2048
  if exponent = 0 then ⟨fraction, 0⟩ else ⟨Nat.pow 2 52 + fraction, exponent - 1⟩

/-- The value and the bounds of the reals that stand for it, as numerators over one denominator. -/
structure Interval where
  value : Nat
  low : Nat
  high : Nat
  denominator : Nat
  closed : Bool

/-- Everything is scaled by four, so that the midpoints are whole. -/
def Magnitude.interval (x : Magnitude) : Interval :=
  let unit := Nat.pow 2 x.q
  let below := if x.m = Nat.pow 2 52 ∧ 0 < x.q then unit else 2 * unit
  ⟨4 * x.m * unit, 4 * x.m * unit - below, 4 * x.m * unit + 2 * unit, 4 * Nat.pow 2 1074,
    x.m % 2 = 0⟩

/-- Whether `digits * 10 ^ (power - 400)` lies in the interval. -/
def Interval.holds (r : Interval) (digits power : Nat) : Bool :=
  let n := digits * Nat.pow 10 power * r.denominator
  let low := r.low * Nat.pow 10 400
  let high := r.high * Nat.pow 10 400
  if r.closed then low ≤ n && n ≤ high else low < n && n < high

/-- The number of decimal digits of a number. -/
def digitCount (n : Nat) : Nat :=
  (Nat.toDigits 10 n).length

/-- The exponent, shifted by 400, of the last of `count` digits of the value. -/
def Interval.lastPower (r : Interval) (count : Nat) : Nat :=
  digitCount (r.value * Nat.pow 10 400 / r.denominator) - count

/-- The decimal of `count` digits in the interval that is nearest to the value, if there is one. -/
def Interval.nearest? (r : Interval) (count : Nat) : Option (Nat × Nat) :=
  let power := r.lastPower count
  let scaled := r.value * Nat.pow 10 400
  let step := Nat.pow 10 power * r.denominator
  let below := scaled / step
  let downDistance := scaled - below * step
  let upDistance := (below + 1) * step - scaled
  let down := r.holds below power
  let up := r.holds (below + 1) power
  if down ∧
      (¬up ∨ downDistance < upDistance ∨ (downDistance = upDistance ∧ below % 2 = 0)) then
    some (below, power)
  else if up then some (below + 1, power)
  else none

/-- The shortest digits, and the exponent, shifted by 400, of the last of them. -/
def Interval.shortest (r : Interval) : Nat × Nat :=
  ((List.range 18).findSome? fun i => r.nearest? (i + 1)).getD (0, 400)

/-- Drops zeros at the end of the digits; `fuel` bounds their number. -/
def dropZeros : (fuel digits power : Nat) → Nat × Nat
  | 0, digits, power => (digits, power)
  | fuel + 1, digits, power =>
    if digits % 10 = 0 then dropZeros fuel (digits / 10) (power + 1) else (digits, power)

/-- Sets the point among the digits whose last has the exponent `last`. -/
def placePoint (digits : List Char) (last : Int) : List Char :=
  let point := digits.length + last
  if 0 ≤ last ∧ point ≤ 16 then
    digits ++ List.replicate last.toNat '0' ++ ['.', '0']
  else if 0 < point ∧ point ≤ 16 then
    digits.take point.toNat ++ '.' :: digits.drop point.toNat
  else if -5 < point ∧ point ≤ 0 then
    '0' :: '.' :: List.replicate (-point).toNat '0' ++ digits
  else
    let exponent := point - 1
    let sign := if exponent < 0 then '-' else '+'
    let power := 'e' :: sign :: Nat.toDigits 10 exponent.natAbs
    match digits with
    | [] => power
    | [d] => d :: power
    | d :: rest => d :: '.' :: rest ++ power

def writeFloat (bits : UInt64) : String :=
  let sign := if Nat.pow 2 63 ≤ bits.toNat then ['-'] else []
  let x := magnitude bits
  if x.m = 0 then String.ofList (sign ++ ['0', '.', '0'])
  else
    let (digits, power) := x.interval.shortest
    let (digits, power) := dropZeros 20 digits power
    String.ofList (sign ++ placePoint (Nat.toDigits 10 digits) ((power : Int) - 400))

end RecordPrivacy.Json
