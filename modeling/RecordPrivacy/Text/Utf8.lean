import RecordPrivacy.Bytes

/-!
Text as UTF-8. Reading either gives the text or says where the bytes stop being UTF-8: a sequence
that no character has, with its length up to the byte that rules it out, or a character cut off by
the end.
-/
namespace RecordPrivacy.Utf8

def encode (text : String) : Bytes :=
  text.toByteArray.data.toList

inductive Fault where
  | malformed (length index : Nat)
  | incomplete (index : Nat)
  deriving DecidableEq, Repr

/-- Where the fault begins, which is where the text before it ends. -/
def Fault.index : Fault → Nat
  | .malformed _ index => index
  | .incomplete index => index

def Fault.message : Fault → String
  | .malformed length index => s!"invalid utf-8 sequence of {length} bytes from index {index}"
  | .incomplete index => s!"incomplete utf-8 byte sequence from index {index}"

/-- What a lead byte announces: how many bytes follow it, and the range of the first of them. -/
def lead? (b : UInt8) : Option (Nat × UInt8 × UInt8) :=
  if b ≤ 0x7F then some (0, 0x80, 0xBF)
  else if b < 0xC2 then none
  else if b ≤ 0xDF then some (1, 0x80, 0xBF)
  else if b = 0xE0 then some (2, 0xA0, 0xBF)
  else if b = 0xED then some (2, 0x80, 0x9F)
  else if b ≤ 0xEF then some (2, 0x80, 0xBF)
  else if b = 0xF0 then some (3, 0x90, 0xBF)
  else if b ≤ 0xF3 then some (3, 0x80, 0xBF)
  else if b = 0xF4 then some (3, 0x80, 0x8F)
  else none

/-- A character in progress: `seen` bytes from `start` on, `owed` still to come, the next of them
between `low` and `high`. -/
structure Pending where
  start : Nat
  seen : Nat
  owed : Nat
  low : UInt8
  high : UInt8

/-- The first fault of the bytes, which lie from `index` on. -/
def fault? : (index : Nat) → Option Pending → Bytes → Option Fault
  | _, none, [] => none
  | _, some p, [] => some (.incomplete p.start)
  | index, none, b :: rest =>
    match lead? b with
    | none => some (.malformed 1 index)
    | some (0, _, _) => fault? (index + 1) none rest
    | some (owed + 1, low, high) =>
      fault? (index + 1) (some ⟨index, 1, owed + 1, low, high⟩) rest
  | index, some p, b :: rest =>
    if p.low ≤ b ∧ b ≤ p.high then
      if p.owed ≤ 1 then fault? (index + 1) none rest
      else fault? (index + 1) (some ⟨p.start, p.seen + 1, p.owed - 1, 0x80, 0xBF⟩) rest
    else some (.malformed p.seen p.start)

def decode (bytes : Bytes) : Except Fault String :=
  match String.fromUTF8? ⟨bytes.toArray⟩ with
  | some text => .ok text
  | none => .error ((fault? 0 none bytes).getD (.incomplete bytes.length))

theorem decode_encode (text : String) : decode (encode text) = .ok text := by
  have h : (ByteArray.mk (encode text).toArray) = text.toByteArray := by simp [encode]
  simp [decode, h, String.fromUTF8?, String.fromUTF8, text.isValidUTF8]

theorem encode_of_decode {bytes : Bytes} {text : String} (h : decode bytes = .ok text) :
    encode text = bytes := by
  unfold decode at h
  split at h
  · rename_i found hf
    unfold String.fromUTF8? at hf
    split at hf
    · cases hf
      cases h
      simp [encode, String.fromUTF8]
    · cases hf
  · cases h

end RecordPrivacy.Utf8
