import RecordPrivacy.Text.Quoted

/-!
JSON values and their compact text. Members stand in a fixed order; an object read from text is kept
sorted by key, with one member for each key. Whole numbers stand for themselves, all others for the
float whose bits they hold.
-/
namespace RecordPrivacy

inductive Json where
  | null
  | bool (value : Bool)
  | integer (value : Int)
  | float (bits : UInt64)
  | text (value : String)
  | array (items : List Json)
  | object (members : List (String × Json))

namespace Json

def natural (n : Nat) : Json := .integer n

def byte (b : UInt8) : Json := natural b.toNat

/-- The first member with the key. -/
def member? (json : Json) (key : String) : Option Json :=
  match json with
  | .object members => members.lookup key
  | _ => none

/-! ### Objects with sorted keys -/

/-- Puts the member in its place among sorted ones; a member with the same key is replaced. -/
def insertMember {α : Type} (key : String) (value : α) :
    List (String × α) → List (String × α)
  | [] => [(key, value)]
  | (other, held) :: rest =>
    if key < other then (key, value) :: (other, held) :: rest
    else if key = other then (key, value) :: rest
    else (other, held) :: insertMember key value rest

/-- Sorted by key, with the last value for each. -/
def sortMembers {α : Type} (members : List (String × α)) : List (String × α) :=
  members.foldl (fun sorted (key, value) => insertMember key value sorted) []

end Json

end RecordPrivacy
