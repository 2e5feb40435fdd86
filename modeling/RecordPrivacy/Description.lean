import RecordPrivacy.Layout.Loose
import RecordPrivacy.Processor

/-!
Record types described as data: every field with its entry in the schema, if it has one, and its
place in the layout. From the descriptions of a family come its schemas, its layouts and, for one of
its types, all that a processor needs to know.
-/
namespace RecordPrivacy

structure FieldDescription (n : Nat) where
  index : Nat
  name : String
  /-- The name of the member in JSON. -/
  memberName : String
  /-- What the schema says of the field; nothing if boundaries do not touch it. -/
  kind : Option (FieldKind n)
  form : Form n

structure TypeDescription (n : Nat) where
  name : String
  style : Style
  fields : List (FieldDescription n)

abbrev Descriptions (n : Nat) := Fin n → TypeDescription n

/-- An implementation of actions that a type brings along. -/
abbrev Override := Action → Capabilities → Record →
  Drawn (Record × Option (Except CapabilityError Unit))

/-- Declines every action. -/
def Override.declining : Override := fun _ _ record => return (record, .none)

namespace Descriptions

section
variable {n : Nat}

def schemaField? (f : FieldDescription n) : Option (FieldSchema n) :=
  f.kind.map fun kind => ⟨f.index, f.name, kind⟩

def family (types : Descriptions n) : Family n := fun t =>
  ⟨(types t).name, (types t).fields.filterMap schemaField?⟩

def layouts (types : Descriptions n) : Layouts n := fun t =>
  ⟨(types t).name, (types t).style,
    (types t).fields.map fun f => ⟨f.index, f.memberName, f.form⟩⟩

def recordType (types : Descriptions n) (root : Fin n) (overrides : List Action)
    (override : Override) : RecordType where
  size := n
  family := types.family
  root := root
  overrides := overrides
  runOverride := override
  empty := types.layouts.empty root
  toJson := types.layouts.toJson root

end

end Descriptions

end RecordPrivacy
