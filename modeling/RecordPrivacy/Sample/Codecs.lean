import RecordPrivacy.Codec.Json

/-!
Small codecs for trying things out.
-/
namespace RecordPrivacy

namespace Json

mutual

/-- The value with the members of every object sorted by key. -/
def sorted : Json → Json
  | .array items => .array (sortedItems items)
  | .object members => .object (sortMembers (sortedMembers members))
  | other => other

def sortedItems : List Json → List Json
  | [] => []
  | item :: rest => sorted item :: sortedItems rest

def sortedMembers : List (String × Json) → List (String × Json)
  | [] => []
  | (key, value) :: rest => (key, sorted value) :: sortedMembers rest

end

end Json

namespace Codec

/-- Refuses everything. -/
def refusing : Codec where
  contentType := "application/x-refuse"
  encode _ := .error (.other "encoder offline")
  decode _ _ := .error (.other "decoder offline")

/-- Forgets everything. -/
def forgetting : Codec where
  contentType := "application/x-noop"
  encode _ := .ok (Utf8.encode "noop")
  decode _ empty := .ok empty

/-- JSON with sorted keys, in hexadecimal. -/
def hex {n : Nat} (layouts : Layouts n) (type : Fin n) : Codec where
  contentType := "application/x-hex"
  encode record :=
    match layouts.toJson type record with
    | .ok value => .ok (Utf8.encode (Bytes.toHex (Utf8.encode value.sorted.write)))
    | .error reason => .error (.json reason)
  decode data _ :=
    match Bytes.ofHexDigits? (data.map fun b => Char.ofNat b.toNat) with
    | none => .error (.other "not hex")
    | some bytes => (layouts.read type bytes).mapError .json

end Codec

end RecordPrivacy
