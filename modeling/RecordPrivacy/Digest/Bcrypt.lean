import RecordPrivacy.Digest.Blowfish
import RecordPrivacy.Text.Utf8

/-!
The bcrypt password digest: a fixed text encrypted over and over under an expensive Blowfish
schedule. The password ends with a zero byte, and no more than 72 bytes of it count.
-/
namespace RecordPrivacy.Bcrypt

def saltSize : Nat := 16

/-- The bytes of the password that count. -/
def significant (password : Bytes) : Bytes :=
  (password ++ [0]).take 72

/-- The encrypted text, as six words. -/
def secret : List (UInt32 × UInt32) :=
  [(0x4F727068, 0x65616E42), (0x65686F6C, 0x64657253), (0x63727944, 0x6F756274)]

def encryptRepeatedly (state : Blowfish.State) :
    (count : Nat) → UInt32 × UInt32 → UInt32 × UInt32
  | 0, pair => pair
  | count + 1, (left, right) =>
    encryptRepeatedly state count (Blowfish.encrypt state left right)

/-- Twenty-three bytes. -/
def derive (cost : Nat) (salt password : Bytes) : Bytes :=
  let state := Blowfish.expensive cost salt.toArray (significant password).toArray
  let bytes := secret.flatMap fun pair =>
    let (left, right) := encryptRepeatedly state 64 pair
    Bytes.ofNatBE 4 left.toNat ++ Bytes.ofNatBE 4 right.toNat
  bytes.take 23

/-! ### Written form -/

def alphabet : Array Char :=
  "./ABCDEFGHIJKLMNOPQRSTUVWXYZabcdefghijklmnopqrstuvwxyz0123456789".toList.toArray

def symbol (n : Nat) : Char :=
  alphabet.getD n '.'

/-- Six bits a symbol, without padding. -/
def encodeSymbols : Bytes → List Char
  | [] => []
  | [a] =>
    let n := a.toNat * 16
    [symbol (n / 64), symbol (n % 64)]
  | [a, b] =>
    let n := a.toNat * 1024 + b.toNat * 4
    [symbol (n / 4096), symbol (n / 64 % 64), symbol (n % 64)]
  | a :: b :: c :: rest =>
    let n := a.toNat * 65536 + b.toNat * 256 + c.toNat
    symbol (n / 262144) :: symbol (n / 4096 % 64) :: symbol (n / 64 % 64) :: symbol (n % 64) ::
      encodeSymbols rest

end RecordPrivacy.Bcrypt
