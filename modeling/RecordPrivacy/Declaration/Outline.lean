import RecordPrivacy.Capability.Identifier
import RecordPrivacy.Declaration.FieldType
import RecordPrivacy.Declaration.Item
import RecordPrivacy.Declaration.Strategy

/-!
The outline of a record's implementation: the entries of its schema, the arms by which its fields
are reached, the actions that it overrides with the calls that carry them out, and the headers under
which all of this stands. Entries and arms count every declared field, so that an index is a place
in the declaration; a field that boundaries do not touch has neither.
-/
namespace RecordPrivacy.Declaration

/-! ### Fields -/

/-- A field at its place, with the strategy that its attributes ask for. -/
structure PlacedField where
  index : Nat
  field : DeclaredField
  strategy : Strategy

inductive EntryKind where
  | leaf (shape : Shape) (directives : List Directive)
  | nested (optional : Bool) (record : TypeExpr)

structure SchemaEntry where
  index : Nat
  name : String
  kind : EntryKind

/-- What an arm reaches: a leaf, or a nested record in the way it is held. -/
inductive Reach where
  | leaf (shape : Shape)
  | nested (holding : Holding)
  deriving DecidableEq, Repr

structure AccessArm where
  index : Nat
  member : String
  reach : Reach
  deriving DecidableEq, Repr

/-- What a boundary finds in a field. -/
inductive Slot where
  | leaf (shape : Shape)
  | record
  | absent
  deriving DecidableEq, Repr

/-- The slot that an arm yields for a member that holds something or nothing; only an optional
member can hold nothing. -/
def Reach.slot (reach : Reach) (holds : Bool) : Slot :=
  match reach with
  | .leaf shape => .leaf shape
  | .nested holding => if holding.isOptional && !holds then .absent else .record

namespace PlacedField

/-- The field's entry in the schema. -/
def entry? (f : PlacedField) : Option SchemaEntry :=
  match f.strategy with
  | .untouched => none
  | .nested =>
    let (holding, record) := f.field.type.holding
    some ⟨f.index, f.field.name, .nested holding.isOptional record⟩
  | .directives directives =>
    f.field.type.leafShape?.map fun shape => ⟨f.index, f.field.name, .leaf shape directives⟩

/-- The arm that reaches the field. -/
def arm? (f : PlacedField) : Option AccessArm :=
  match f.strategy with
  | .untouched => none
  | .nested => some ⟨f.index, f.field.name, .nested f.field.type.holding.1⟩
  | .directives _ =>
    f.field.type.leafShape?.map fun shape => ⟨f.index, f.field.name, .leaf shape⟩

/-- Adds the type parameters that the field's nested record depends on. -/
def collect (parameters : List String) (found : List String) (f : PlacedField) : List String :=
  match f.strategy with
  | .nested => f.field.type.holding.2.collect parameters found
  | _ => found

/-- The fields from a place on; the first field with attributes at fault is the one reported. -/
def ofFields : (index : Nat) → List DeclaredField → Except DeclarationError (List PlacedField)
  | _, [] => .ok []
  | index, field :: rest =>
    match Strategy.ofAttributes field.attributes with
    | .error e => .error e
    | .ok strategy =>
      match ofFields (index + 1) rest with
      | .error e => .error e
      | .ok later => .ok (⟨index, field, strategy⟩ :: later)

end PlacedField

/-! ### Overrides -/

/-- A call to the type's own implementation of an action, with the registry that it is given. -/
structure OverrideCall where
  implementation : String
  registry : Option CapabilityKind
  deriving DecidableEq, Repr

def overrideCall : Action → OverrideCall
  | .hash => ⟨"Hashable", some .hasher⟩
  | .decrypt => ⟨"Decryptable", some .encryptor⟩
  | .encrypt => ⟨"Encryptable", some .encryptor⟩
  | .mask => ⟨"Maskable", some .masker⟩
  | .redact => ⟨"Redactable", none⟩

/-! ### Outlines -/

structure Outline where
  typeName : String
  /-- The actions that the type carries out itself. -/
  overrides : List Action
  entries : List SchemaEntry
  arms : List AccessArm
  /-- The type parameters that have to be guarded. -/
  guardedParameters : List String
  /-- The header of the implementation that reaches the fields. -/
  accessHeader : List Tree
  /-- The header of the implementation that describes the record. -/
  guardedHeader : List Tree

namespace Outline

/-- The calls for the overridden actions, in order. -/
def calls (o : Outline) : List OverrideCall :=
  o.overrides.map overrideCall

/-- The call that carries out an action in place of the plans. -/
def dispatch? (o : Outline) (action : Action) : Option OverrideCall :=
  if action ∈ o.overrides then some (overrideCall action) else none

/-- The slot that the record yields at an index, if an arm reaches it. -/
def slot? (o : Outline) (index : Nat) (holds : Bool) : Option Slot :=
  (o.arms.find? (·.index = index)).map fun arm => arm.reach.slot holds

/-- A path from the root, of names. -/
def rootPath (names : List String) : List Tree :=
  names.flatMap fun name => Tree.pathSign ++ [Tree.word name]

/-- The bounds that are added to the declared ones. -/
def bounded (library : String) (guarded : List String) (g : Generics) : Generics :=
  (g.boundAmong guarded (rootPath [library, "Guarded"])).boundAll [.lifetime "'static"]

/-- That the record as a whole can be copied. -/
def copied : List Tree :=
  .word "Self" :: Tree.lone ':' :: rootPath ["core", "clone", "Clone"]

def header (library implemented name : String) (g : Generics) : List Tree :=
  .word "impl" :: (g.bracketed GenericParameter.declared ++ rootPath [library, implemented] ++
    .word "for" :: .word name :: g.bracketed GenericParameter.passed ++ g.whereClause)

/-- The outline of a record with the given overrides and fields. -/
def ofFields (library : String) (item : Item) (overrides : List Action)
    (fields : List PlacedField) : Outline :=
  let guarded := fields.foldl (PlacedField.collect item.generics.typeNames) []
  let g := bounded library guarded item.generics
  { typeName := item.name
    overrides := overrides
    entries := fields.filterMap PlacedField.entry?
    arms := fields.filterMap PlacedField.arm?
    guardedParameters := guarded
    accessHeader := header library "FieldAccess" item.name g
    guardedHeader := header library "Guarded" item.name (g.addPredicate copied) }

/-- The outline of a declared item under the library's name. The attributes of the item come first,
then the question whether it is a record, then its fields in order. -/
def ofItem (library : String) (item : Item) : Except DeclarationError Outline :=
  match overridesOf item.attributes with
  | .error e => .error e
  | .ok overrides =>
    match item.body with
    | .enumeration => .error .enumeration
    | .union => .error .union
    | .record fields =>
      match PlacedField.ofFields 0 fields with
      | .error e => .error e
      | .ok placed => .ok (ofFields library item overrides placed)

end Outline

end RecordPrivacy.Declaration
