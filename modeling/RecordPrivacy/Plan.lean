import RecordPrivacy.Capability.Identifier
import RecordPrivacy.Schema

/-!
Plans: for every action on every leaf of a record type, where the leaf is and what to do with it.
They are compiled once, from the schema of the type and of the types nested in it, in declaration
order and depth first. Compilation refuses a parameter that its action does not accept and a type
that nests itself; of several faults the first in that order is reported.
-/
namespace RecordPrivacy

/-- A directive's parameter, checked. -/
inductive Parameter where
  | encryptor (algorithm : EncryptionAlgorithm)
  | hasher (algorithm : HashAlgorithm)
  | masker (format : MaskFormat)
  | literal (text : String)
  deriving DecidableEq, Repr

namespace Parameter

/-- The parameter that the text stands for under the action; a redaction accepts any text. -/
def resolve? (action : Action) (text : String) : Option Parameter :=
  match action with
  | .encrypt | .decrypt => (EncryptionAlgorithm.ofText? text).map encryptor
  | .hash => (HashAlgorithm.ofText? text).map hasher
  | .mask => (MaskFormat.ofText? text).map masker
  | .redact => some (literal text)

/-- The registry that the parameter is looked up in; a literal needs none. -/
def kind? : Parameter → Option CapabilityKind
  | .encryptor _ => some .encryptor
  | .hasher _ => some .hasher
  | .masker _ => some .masker
  | .literal _ => none

def text : Parameter → String
  | .encryptor algorithm => algorithm.text
  | .hasher algorithm => algorithm.text
  | .masker format => format.text
  | .literal text => text

end Parameter

inductive CompileError where
  | invalidParameter (field : String) (action : Action) (parameter : String)
  | recursiveType (field typeName : String)
  deriving DecidableEq, Repr

def CompileError.message : CompileError → String
  | .invalidParameter field action parameter =>
    s!"invalid {action.text} parameter {Text.quoted parameter} for field {field}"
  | .recursiveType field typeName =>
    s!"nested record {typeName} at field {field} contains itself"

/-- How to reach one leaf and what to do with it. -/
structure FieldPlan where
  /-- Declaration indices from the record down to the leaf. -/
  path : List Nat
  /-- The places in the path whose record may be absent. -/
  optionalSteps : List Nat
  /-- The names along the path, set apart by dots. -/
  name : String
  parameter : Parameter
  shape : Shape
  deriving DecidableEq, Repr

/-- The plans of a record type, each with its action, in the order in which they were compiled. -/
structure PlanSet where
  typeName : String
  entries : List (Action × FieldPlan)
  deriving DecidableEq, Repr

namespace PlanSet

/-- The plans of one action, in order. -/
def forAction (plans : PlanSet) (action : Action) : List FieldPlan :=
  plans.entries.filterMap fun (a, plan) => if a = action then some plan else none

def size (plans : PlanSet) : Nat :=
  plans.entries.length

end PlanSet

/-! ### Compilation -/

/-- Where compilation stands: what leads from the root to the fields at hand. -/
structure Position where
  path : List Nat
  optionalSteps : List Nat
  names : List String
  deriving DecidableEq, Repr

namespace Position

def root : Position := ⟨[], [], []⟩

/-- The position inside a nested record. -/
def enter {n : Nat} (at_ : Position) (field : FieldSchema n) (optional : Bool) : Position where
  path := at_.path ++ [field.index]
  optionalSteps := if optional then at_.optionalSteps ++ [at_.path.length] else at_.optionalSteps
  names := at_.names ++ [field.name]

/-- The names on the way to a field and its own, set apart by dots; no dot follows an empty way. -/
def dotted (at_ : Position) (name : String) : String :=
  let way := String.intercalate "." at_.names
  if way = "" then name else way ++ "." ++ name

/-- The plan of a leaf for one of its directives. -/
def plan {n : Nat} (at_ : Position) (field : FieldSchema n) (shape : Shape)
    (parameter : Parameter) : FieldPlan where
  path := at_.path ++ [field.index]
  optionalSteps := at_.optionalSteps
  name := at_.dotted field.name
  parameter := parameter
  shape := shape

end Position

section
variable {n : Nat}

/-- The plans of a leaf, one for every directive. -/
def compileLeaf (at_ : Position) (field : FieldSchema n) (shape : Shape) :
    List Directive → Except CompileError (List (Action × FieldPlan))
  | [] => .ok []
  | directive :: rest =>
    match Parameter.resolve? directive.action directive.parameter with
    | none =>
      .error (.invalidParameter (at_.dotted field.name) directive.action directive.parameter)
    | some parameter =>
      match compileLeaf at_ field shape rest with
      | .error e => .error e
      | .ok later => .ok ((directive.action, at_.plan field shape parameter) :: later)

/-- The plans of the fields at a position. A nested record is entered if its type is still `fresh`,
that is, not among the types that lead to it; the types left shrink on the way down, so that the
descent ends. -/
def compileFields (family : Family n) (fresh : List (Fin n)) (at_ : Position) :
    List (FieldSchema n) → Except CompileError (List (Action × FieldPlan))
  | [] => .ok []
  | field :: rest =>
    let here :=
      match field.kind with
      | .leaf shape directives => compileLeaf at_ field shape directives
      | .nested optional record =>
        if h : record ∈ fresh then
          have := List.length_pos_of_mem h
          have := List.length_erase_of_mem h
          compileFields family (fresh.erase record) (at_.enter field optional)
            (family record).fields
        else .error (.recursiveType (at_.dotted field.name) (family record).name)
    match here with
    | .error e => .error e
    | .ok plans =>
      match compileFields family fresh at_ rest with
      | .error e => .error e
      | .ok later => .ok (plans ++ later)
termination_by fields => (fresh.length, fields.length)
decreasing_by
  all_goals simp_wf
  · exact Prod.Lex.left _ _ (by omega)
  · exact Prod.Lex.right _ (by omega)

def PlanSet.compile (family : Family n) (root : Fin n) : Except CompileError PlanSet :=
  match compileFields family ((List.finRange n).erase root) .root (family root).fields with
  | .error e => .error e
  | .ok entries => .ok ⟨(family root).name, entries⟩

end

end RecordPrivacy
