import RecordPrivacy.Declaration.TypeExpr
import RecordPrivacy.Schema

/-!
What a field's type says about the field: the shape of a leaf, the way in which a nested record is
held, and the type parameters that the nested record depends on. All of it is read off the last
segments of paths, so that a type is recognised by its own name wherever it comes from, and aliases
are not followed.
-/
namespace RecordPrivacy.Declaration

namespace TypeExpr

/-- The last segment of an unqualified path, behind any wrappers. -/
def lastSegment? : TypeExpr → Option (String × Arguments)
  | .path false _ name arguments => some (name, arguments)
  | .path true _ _ _ => none
  | .parenthesized inner => lastSegment? inner
  | .grouped inner => lastSegment? inner
  | .sum _ _ => none
  | .other _ => none

end TypeExpr

def Argument.type? : Argument → Option TypeExpr
  | .ofType type => some type
  | _ => none

/-- The types among the arguments in angle brackets. -/
def Arguments.types : Arguments → List TypeExpr
  | .angled _ arguments _ => arguments.filterMap Argument.type?
  | .none => []

namespace TypeExpr

/-- Whether the type is the name alone. -/
def isBare (type : TypeExpr) (name : String) : Bool :=
  match type.lastSegment? with
  | some (n, arguments) => n == name && arguments.isEmpty
  | none => false

/-! ### Leaves -/

/-- The shape of a container's content, by its name and its type arguments. -/
def containerShape? (name : String) (types : List TypeExpr) : Option Shape :=
  match name, types with
  | "Vec", [item] =>
    if item.isBare "u8" then some .bytes
    else if item.isBare "String" then some .sequence
    else none
  | "HashMap", [_, value] => if value.isBare "String" then some .mapping else none
  | "HashMap", [_, value, _] => if value.isBare "String" then some .mapping else none
  | "BTreeMap", [_, value] => if value.isBare "String" then some .mapping else none
  | _, _ => none

/-- The shape of the type, if it is one of those that can be transformed. -/
def leafShape? (type : TypeExpr) : Option Shape :=
  if type.isBare "String" then some .text
  else
    match type.lastSegment? with
    | some (name, arguments) => containerShape? name arguments.types
    | none => none

end TypeExpr

/-! ### Nested records -/

/-- How a field holds a nested record. -/
inductive Holding where
  | plain
  | boxed
  | optional
  | optionalBoxed
  deriving DecidableEq, Repr

def Holding.isOptional : Holding → Bool
  | .plain => false
  | .boxed => false
  | .optional => true
  | .optionalBoxed => true

namespace TypeExpr

/-- The single argument of the wrapping type, if the type is an application of it. -/
def unwrap? (type : TypeExpr) (wrapper : String) : Option TypeExpr :=
  match type.lastSegment? with
  | some (name, arguments) =>
    if name = wrapper then
      match arguments.types with
      | [inner] => some inner
      | _ => none
    else none
  | none => none

/-- How the field holds its record, and the record's type. -/
def holding (type : TypeExpr) : Holding × TypeExpr :=
  match type.unwrap? "Option" with
  | some inner =>
    match inner.unwrap? "Box" with
    | some record => (.optionalBoxed, record)
    | none => (.optional, inner)
  | none =>
    match type.unwrap? "Box" with
    | some record => (.boxed, record)
    | none => (.plain, type)

end TypeExpr

/-! ### Type parameters -/

/-- Adds the name to those found, if it is a parameter that has not been found before. -/
def addFound (parameters : List String) (name : String) (found : List String) : List String :=
  if name ∈ parameters ∧ name ∉ found then found ++ [name] else found

mutual

/-- The type parameters that occur in the type, after those already found. A path is searched in its
last segment, first the arguments, then the name; a marker that only mentions its parameter is
passed over. -/
def TypeExpr.collect (parameters : List String) (found : List String) : TypeExpr → List String
  | .path _ _ name arguments =>
    if name = "PhantomData" then found
    else addFound parameters name (arguments.collect parameters found)
  | _ => found

def Arguments.collect (parameters : List String) (found : List String) : Arguments → List String
  | .angled _ arguments _ => collectArguments parameters found arguments
  | .none => found

def collectArguments (parameters : List String) (found : List String) :
    List Argument → List String
  | [] => found
  | .ofType type :: rest =>
    collectArguments parameters (type.collect parameters found) rest
  | _ :: rest => collectArguments parameters found rest

end

end RecordPrivacy.Declaration
