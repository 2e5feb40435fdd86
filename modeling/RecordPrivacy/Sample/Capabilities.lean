import RecordPrivacy.Capability.Registry

/-!
Small capabilities for trying things out: predictable ones, and ones that always fail.
-/
namespace RecordPrivacy

/-- Combines every byte with one and the same byte, both ways. -/
def Encryptor.xor (byte : UInt8) : Encryptor where
  encrypt data := return .ok (data.map (· ^^^ byte))
  decrypt data := .ok (data.map (· ^^^ byte))

/-- Puts a byte in front that stands for the key, and takes back only what has that byte there. -/
def Encryptor.stamped (key : UInt8) : Encryptor where
  encrypt data := return .ok (key :: data)
  decrypt
    | [] => .error .ciphertextTooShort
    | first :: data => if first = key then .ok data else .error .decryptionFailed

/-- Answers the same bytes always, both ways. -/
def Encryptor.constant (answer : Bytes) : Encryptor where
  encrypt _ := return .ok answer
  decrypt _ := .ok answer

def Encryptor.failing (error : CapabilityError) : Encryptor where
  encrypt _ := return .error error
  decrypt _ := .error error

/-- The data in hexadecimal, after a fixed text. -/
def Hasher.hex (front : String) : Hasher where
  hash data := return .ok (front ++ Bytes.toHex data)

def Hasher.failing (error : CapabilityError) : Hasher where
  hash _ := return .error error

/-- A star for every character. -/
def Masker.stars : Masker where
  mask value := .ok (String.ofList (value.toList.map fun _ => Mask.star))

/-- The value between two copies of a text. -/
def Masker.tag (text : String) : Masker where
  mask value := .ok (text ++ value ++ text)

def Masker.failing (error : CapabilityError) : Masker where
  mask _ := .error error

end RecordPrivacy
