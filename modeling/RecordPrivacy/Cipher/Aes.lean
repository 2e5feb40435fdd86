import RecordPrivacy.Bytes

/-!
The AES block cipher, forward direction, for keys of 16, 24 or 32 bytes. A block is sixteen bytes,
column after column.
-/
namespace RecordPrivacy.Aes

/-! ### The field of 256 elements -/

def double (b : UInt8) : UInt8 :=
  if b < 0x80 then b <<< 1 else (b <<< 1) ^^^ 0x1B

/-- The product of two field elements, by the lowest `bits` bits of the second. -/
def mulFrom (a : UInt8) : (bits : Nat) → UInt8 → UInt8
  | 0, _ => 0
  | bits + 1, b => (if b &&& 1 = 1 then a else 0) ^^^ mulFrom (double a) bits (b >>> 1)

def mul (a b : UInt8) : UInt8 :=
  mulFrom a 8 b

/-- The power with exponent 254, which inverts every element but zero. -/
def inverse (b : UInt8) : UInt8 :=
  let b2 := mul b b
  let b4 := mul b2 b2
  let b8 := mul b4 b4
  let b16 := mul b8 b8
  let b32 := mul b16 b16
  let b64 := mul b32 b32
  let b128 := mul b64 b64
  mul b2 (mul b4 (mul b8 (mul b16 (mul b32 (mul b64 b128)))))

def rotateLeft (b : UInt8) (count : UInt8) : UInt8 :=
  (b <<< count) ||| (b >>> (8 - count))

/-- The inverse followed by the affine map. -/
def substitute (b : UInt8) : UInt8 :=
  let i := inverse b
  i ^^^ rotateLeft i 1 ^^^ rotateLeft i 2 ^^^ rotateLeft i 3 ^^^ rotateLeft i 4 ^^^ 0x63

/-- `substitute`, tabulated. -/
def substitutions : Array UInt8 :=
  (Array.range 256).map fun n => substitute (UInt8.ofNat n)

def sub (b : UInt8) : UInt8 :=
  substitutions.getD b.toNat 0

/-! ### Keys -/

/-- Extends the key schedule, held latest word first, up to `count` further words; `index` is the
place of the next word and `constant` the next round constant. -/
def expandFrom (keyWords : Nat) : (count index : Nat) → UInt8 → List Bytes → List Bytes
  | 0, _, _, latest => latest
  | count + 1, index, constant, latest =>
    let previous := latest.headD []
    let base := latest.getD (keyWords - 1) []
    if index % keyWords = 0 then
      let rotated := (previous.drop 1 ++ previous.take 1).map sub
      let mixed := Bytes.xor rotated [constant, 0, 0, 0]
      expandFrom keyWords count (index + 1) (double constant) (Bytes.xor base mixed :: latest)
    else
      let mixed := if 6 < keyWords ∧ index % keyWords = 4 then previous.map sub else previous
      expandFrom keyWords count (index + 1) constant (Bytes.xor base mixed :: latest)

/-- The sixteen-byte round keys: six more of them than the key has words, and one to start with. -/
def roundKeys (key : Bytes) : List Bytes :=
  let keyWords := key.length / 4
  let total := 4 * (keyWords + 7)
  let words := expandFrom keyWords (total - keyWords) keyWords 1 (Bytes.chunks 4 key).reverse
  Bytes.chunks 16 words.reverse.flatten

/-! ### Rounds -/

/-- Row `r` of the block moves `r` columns to the left. -/
def shiftRows (block : Bytes) : Bytes :=
  (List.range 16).map fun i => block.getD ((i + 4 * (i % 4)) % 16) 0

def mixColumn : Bytes → Bytes
  | [a, b, c, d] =>
    [double a ^^^ double b ^^^ b ^^^ c ^^^ d, a ^^^ double b ^^^ double c ^^^ c ^^^ d,
      a ^^^ b ^^^ double c ^^^ double d ^^^ d, double a ^^^ a ^^^ b ^^^ c ^^^ double d]
  | column => column

def mixColumns (block : Bytes) : Bytes :=
  (Bytes.chunks 4 block).flatMap mixColumn

/-- The rounds after the first key has been added; the last one mixes no columns. -/
def rounds (block : Bytes) : List Bytes → Bytes
  | [] => block
  | [last] => Bytes.xor (shiftRows (block.map sub)) last
  | key :: rest => rounds (Bytes.xor (mixColumns (shiftRows (block.map sub))) key) rest

def encryptBlock (keys : List Bytes) (block : Bytes) : Bytes :=
  match keys with
  | [] => block
  | first :: rest => rounds (Bytes.xor block first) rest

end RecordPrivacy.Aes
