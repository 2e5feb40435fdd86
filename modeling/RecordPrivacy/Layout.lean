import RecordPrivacy.Record

/-!
Layouts: how the records of a type are written as JSON. A layout names the members of a record in
declaration order and says what each holds. A strict layout is an object with the members in that
order, a list, or nothing but null, and is read back exactly; a loose one is an object whose members
are sorted by name, and reading fills in what is missing and drops what is unknown.
-/
namespace RecordPrivacy

/-- The keys of a mapping. -/
inductive KeyForm where
  | text
  | number
  deriving DecidableEq, Repr

/-- What a hidden member holds. -/
inductive DataForm where
  | any
  | flag
  | number
  | numbers
  | text
  | optionalText
  deriving DecidableEq, Repr

inductive Form (n : Nat) where
  | text
  | bytes
  | sequence
  | mapping (keys : KeyForm)
  | record (type : Fin n)
  | optional (type : Fin n)
  /-- An optional record that is always absent. -/
  | absent
  | data (form : DataForm)
  /-- A hidden member that cannot be written. -/
  | unwritable
  deriving DecidableEq, Repr

structure Member (n : Nat) where
  index : Nat
  name : String
  form : Form n
  deriving DecidableEq, Repr

inductive Style where
  | loose
  | named
  | tuple
  | unit
  deriving DecidableEq, Repr

structure Layout (n : Nat) where
  name : String
  style : Style
  members : List (Member n)
  deriving DecidableEq, Repr

abbrev Layouts (n : Nat) := Fin n → Layout n

namespace Layouts

section
variable {n : Nat}

/-! ### Empty values -/

def emptyData : DataForm → Json
  | .any => .null
  | .flag => .bool false
  | .number => .integer 0
  | .numbers => .array []
  | .text => .text ""
  | .optionalText => .null

/-- The empty content of a form; `record` gives the empty record of a type. -/
def emptyContent (record : Fin n → Record) : Form n → Content
  | .text => .leaf (.text "")
  | .bytes => .leaf (.bytes [])
  | .sequence => .leaf (.sequence [])
  | .mapping _ => .leaf (.mapping [])
  | .record type => .record (record type)
  | .optional _ => .optional none
  | .absent => .optional none
  | .data form => .hidden (emptyData form)
  | .unwritable => .hidden .null

/-- The empty record of a type, for records nested no deeper than `depth`. -/
def emptyTo (layouts : Layouts n) : (depth : Nat) → Fin n → Record
  | 0, _ => []
  | depth + 1, type =>
    (layouts type).members.map fun m => (m.index, emptyContent (emptyTo layouts depth) m.form)

def empty (layouts : Layouts n) (type : Fin n) : Record :=
  emptyTo layouts (n + 1) type

/-! ### Writing -/

def keyText : Key → String
  | .text value => value
  | .number value => toString value
  | .other written _ => written

def leafJson : Leaf → Json
  | .text value => .text value
  | .bytes value => .array (value.map Json.byte)
  | .sequence items => .array (items.map .text)
  | .mapping entries => .object (entries.map fun (key, value) => (keyText key, .text value))

/-- The type of the record that a form nests. -/
def nestedType? : Form n → Option (Fin n)
  | .record type => some type
  | .optional type => some type
  | _ => none

/-- A value with its own members, if it has any, sorted by name. -/
def sortedInside : Json → Json
  | .object members => .object (Json.sortMembers members)
  | json => json

/-- The members of a record, put together as its style demands; the numbers that are keys of a loose
record's mapping are sorted as texts. -/
def assemble (style : Style) (members : List (String × Json)) : Json :=
  match style with
  | .loose =>
    .object (Json.sortMembers (members.map fun (name, json) => (name, sortedInside json)))
  | .named => .object members
  | .tuple => .array (members.map (·.2))
  | .unit => .null

mutual

/-- The JSON of a content; with `strictly`, a member that cannot be written is refused. -/
def contentJson (layouts : Layouts n) (strictly : Bool) (form : Form n) :
    Content → Except String Json
  | .leaf value => .ok (leafJson value)
  | .record fields => nestedJson layouts strictly form fields
  | .optional none => .ok .null
  | .optional (some fields) => nestedJson layouts strictly form fields
  | .hidden data =>
    if strictly ∧ form = .unwritable then .error "unserializable field" else .ok data

def nestedJson (layouts : Layouts n) (strictly : Bool) (form : Form n) (fields : Record) :
    Except String Json :=
  match nestedType? form with
  | none => .ok .null
  | some type =>
    match membersJson layouts strictly (layouts type).members fields with
    | .error e => .error e
    | .ok members => .ok (assemble (layouts type).style members)

def membersJson (layouts : Layouts n) (strictly : Bool) (members : List (Member n)) :
    Record → Except String (List (String × Json))
  | [] => .ok []
  | (_, content) :: rest =>
    match members with
    | [] => .ok []
    | member :: others =>
      match contentJson layouts strictly member.form content with
      | .error e => .error e
      | .ok json =>
        match membersJson layouts strictly others rest with
        | .error e => .error e
        | .ok later => .ok ((member.name, json) :: later)

end

/-- The JSON of a record, or why it cannot be written. -/
def toJson (layouts : Layouts n) (type : Fin n) (record : Record) : Except String Json :=
  nestedJson layouts true (.record type) record

/-- The JSON of a record for display, where everything can be shown. -/
def shown (layouts : Layouts n) (type : Fin n) (record : Record) : Json :=
  match nestedJson layouts false (.record type) record with
  | .ok json => json
  | .error _ => .null

end

end Layouts

end RecordPrivacy
