import RecordPrivacy.Mask.Keep

/-!
Codes of a fixed layout, whose length is counted in characters: UUIDs, of which the first segment
stays, and bank account numbers, of which four characters stay at each end.
-/
namespace RecordPrivacy.Mask

def uuidLengths : List Nat := [8, 4, 4, 4, 12]

/-- The first segment, counted from `place`, whose length is not the expected one. -/
def lengthFault? : (place : Nat) → List (List Char) → List Nat → Option String
  | place, part :: parts, expected :: rest =>
    if part.length = expected then lengthFault? (place + 1) parts rest
    else some s!"segment {place} has length {part.length}, expected {expected}"
  | _, _, _ => none

def uuid (text : List Char) : Except String (List Char) :=
  match text.splitOn '-' with
  | [a, b, c, d, e] =>
    match lengthFault? 1 [a, b, c, d, e] uuidLengths with
    | some fault => .error fault
    | none => .ok (a ++ "-****-****-****-************".toList)
  | _ => .error "requires 5 hyphen-separated segments"

def isLetter (c : Char) : Bool :=
  ('a' ≤ c && c ≤ 'z') || ('A' ≤ c && c ≤ 'Z')

def iban (text : List Char) : Except String (List Char) :=
  if text.length < 15 ∨ 34 < text.length then
    .error s!"requires 15-34 characters, got {text.length}"
  else if (text.take 2).all isLetter then .ok (keep 4 4 text)
  else .error "must start with a 2-letter country code"

end RecordPrivacy.Mask
