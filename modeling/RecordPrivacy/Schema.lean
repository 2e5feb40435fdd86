import RecordPrivacy.Boundary

/-!
Record types, described. A schema lists the fields that boundaries may touch, each with its
declaration index: a leaf with its shape and its directives, or a nested record, perhaps optional.
The types that may nest one another form a family; within it a type is known by its number, so that
two types of one name stay apart and a type may refer to itself.
-/
namespace RecordPrivacy

/-- How the text of a leaf is held. -/
inductive Shape where
  | text
  | bytes
  | sequence
  | mapping
  deriving DecidableEq, Repr

def Shape.label : Shape → String
  | .text => "Text"
  | .bytes => "Bytes"
  | .sequence => "TextSequence"
  | .mapping => "TextMapping"

/-- An action and its parameter as it was written, not yet checked. -/
structure Directive where
  action : Action
  parameter : String
  deriving DecidableEq, Repr

inductive FieldKind (n : Nat) where
  | leaf (shape : Shape) (directives : List Directive)
  | nested (optional : Bool) (record : Fin n)
  deriving DecidableEq, Repr

structure FieldSchema (n : Nat) where
  index : Nat
  name : String
  kind : FieldKind n
  deriving DecidableEq, Repr

structure Schema (n : Nat) where
  name : String
  fields : List (FieldSchema n)
  deriving DecidableEq, Repr

abbrev Family (n : Nat) := Fin n → Schema n

end RecordPrivacy
