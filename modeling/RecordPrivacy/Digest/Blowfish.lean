import RecordPrivacy.Bytes

/-!
The Blowfish block cipher and the expensive key schedule that password digests build on it. Its
tables start as the digits of the fraction of π: eighteen words of round keys, then four boxes of
256 words.
-/
namespace RecordPrivacy.Blowfish

/-! ### The digits of π -/

/-- Sums the arctangent series of `1 / x` in fixed point: `power` is the next power of `1 / x` and
`odd` its exponent; `steps` bounds the number of terms. -/
def arctanFrom (square : Nat) : (steps odd power : Nat) → Int
  | 0, _, _ => 0
  | steps + 1, odd, power =>
    (power / odd : Nat) - arctanFrom square steps (odd + 2) (power / square)

def arctan (x steps scale : Nat) : Int :=
  arctanFrom (x * x) steps 1 (scale / x)

def tableWords : Nat := 18 + 4 * 256

/-- The fraction of π to the bits that the tables need, by arctangents with 64 bits to spare. -/
def fractionOfPi : Nat :=
  let bits := 32 * tableWords
  let scale := Nat.pow 2 (bits + 64)
  let steps := bits / 4
  let pi := 16 * arctan 5 steps scale - 4 * arctan 239 steps scale
  (pi.toNat - 3 * scale) / Nat.pow 2 64

def piWords : Array UInt32 :=
  ((Bytes.chunks 4 (Bytes.ofNatBE (4 * tableWords) fractionOfPi)).map fun word =>
    UInt32.ofNat (Bytes.toNatBE word)).toArray

/-! ### The cipher -/

structure State where
  keys : Array UInt32
  boxes : Array UInt32

def initial : State :=
  ⟨piWords.extract 0 18, piWords.extract 18 tableWords⟩

/-- The mixing function, on the four bytes of a word. -/
def mix (boxes : Array UInt32) (x : UInt32) : UInt32 :=
  let a := boxes.getD (x >>> 24).toNat 0
  let b := boxes.getD (256 + ((x >>> 16) &&& 0xFF).toNat) 0
  let c := boxes.getD (512 + ((x >>> 8) &&& 0xFF).toNat) 0
  let d := boxes.getD (768 + (x &&& 0xFF).toNat) 0
  ((a + b) ^^^ c) + d

/-- The rounds from `round` on, `count` of them; each swaps the halves. -/
def rounds (state : State) : (count round : Nat) → UInt32 → UInt32 → UInt32 × UInt32
  | 0, _, left, right => (left, right)
  | count + 1, round, left, right =>
    let left := left ^^^ state.keys.getD round 0
    rounds state count (round + 1) (right ^^^ mix state.boxes left) left

def encrypt (state : State) (left right : UInt32) : UInt32 × UInt32 :=
  let (left, right) := rounds state 16 0 left right
  (right ^^^ state.keys.getD 17 0, left ^^^ state.keys.getD 16 0)

/-! ### The key schedule -/

/-- The word at byte `offset` of the bytes repeated without end. -/
def wordAt (bytes : Array UInt8) (offset : Nat) : UInt32 :=
  (List.range 4).foldl
    (fun word i => (word <<< 8) ||| (bytes.getD ((offset + i) % bytes.size) 0).toUInt32) 0

/-- Replaces the round keys, two at a time, by the running encryption of the salt. -/
def refillKeys (salt : Array UInt8) : (count place : Nat) → UInt32 → UInt32 → State →
    State × UInt32 × UInt32
  | 0, _, left, right, state => (state, left, right)
  | count + 1, place, left, right, state =>
    let (left, right) := encrypt state (left ^^^ wordAt salt (4 * place))
      (right ^^^ wordAt salt (4 * place + 4))
    let keys := (state.keys.setIfInBounds place left).setIfInBounds (place + 1) right
    refillKeys salt count (place + 2) left right ⟨keys, state.boxes⟩

/-- Goes on to replace the boxes in the same way. -/
def refillBoxes (salt : Array UInt8) : (count place : Nat) → UInt32 → UInt32 → State → State
  | 0, _, _, _, state => state
  | count + 1, place, left, right, state =>
    let (left, right) := encrypt state (left ^^^ wordAt salt (4 * (place + 18)))
      (right ^^^ wordAt salt (4 * (place + 19)))
    let boxes := (state.boxes.setIfInBounds place left).setIfInBounds (place + 1) right
    refillBoxes salt count (place + 2) left right ⟨state.keys, boxes⟩

/-- Mixes a key into the round keys, then refills every table. -/
def expand (salt key : Array UInt8) (state : State) : State :=
  let keys := state.keys.mapIdx fun i word => word ^^^ wordAt key (4 * i)
  let (state, left, right) := refillKeys salt 9 0 0 0 ⟨keys, state.boxes⟩
  refillBoxes salt 512 0 left right state

def zeroSalt : Array UInt8 := Array.replicate 16 0

/-- Alternates between the two keys `count` times. -/
def alternate (key salt : Array UInt8) : (count : Nat) → State → State
  | 0, state => state
  | count + 1, state => alternate key salt count (expand zeroSalt salt (expand zeroSalt key state))

/-- The schedule whose work doubles with every unit of cost. -/
def expensive (cost : Nat) (salt key : Array UInt8) : State :=
  alternate key salt (Nat.pow 2 cost) (expand salt key initial)

end RecordPrivacy.Blowfish
