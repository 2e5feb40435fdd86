import RecordPrivacy.Declaration.Lexer
import RecordPrivacy.Declaration.TreeReader.Discriminant

/-!
Declared items: a record with named, numbered or no fields, or something that is no record. Reading
an item takes all of its text; what does not have the form of an item is refused.
-/
namespace RecordPrivacy.Declaration

structure DeclaredField where
  attributes : List Attribute
  /-- The field's name; a numbered field is named by its place. -/
  name : String
  type : TypeExpr

inductive ItemBody where
  | record (fields : List DeclaredField)
  | enumeration
  | union

structure Item where
  attributes : List Attribute
  name : String
  generics : Generics
  body : ItemBody

namespace TreeReader

/-- The attributes that come next, without their trees. -/
def ownAttributes : TreeReader (List Attribute) := do
  let read ← attributes (← nestedAhead)
  return read.map (·.1)

def type : TreeReader TypeExpr := do
  (← nestedAhead).type true

/-! ### Predicates -/

/-- Whether predicates, or the bounds of one, end here. -/
def endsPredicate (trees : List Tree) : Bool :=
  trees.isEmpty || Tree.startsBrace trees || Tree.startsWith ',' trees ||
    Tree.startsWith ';' trees || Tree.startsWith '=' trees ||
    Tree.startsColon trees

def predicate : TreeReader (List Tree) := do
  let nested ← nestedAhead
  match ← ahead with
  | .lifetime name :: .sign ':' _ :: rest =>
    goOn rest
    return .lifetime name :: Tree.lone ':' :: (← lifetimeBounds endsPredicate)
  | _ =>
    let front := (← binder? nested).getD []
    let bounded ← nested.type true
    sign ':'
    let (bounds, trailing) ← items nested.bound '+' endsPredicate
    return front ++ bounded.trees ++ Tree.lone ':' ::
      separated '+' trailing (bounds.map Bound.trees)

/-- Whether what comes next looks like parameters in angle brackets, and not like a qualified
path. -/
def startsParameters (trees : List Tree) : Bool :=
  let inside := trees.drop 1
  let rest := trees.drop 2
  let startsName : Bool :=
    match inside with
    | .word text :: _ => isIdentifier text
    | _ => Tree.startsLifetime inside
  Tree.startsWith '<' trees &&
    (Tree.startsWith '>' inside || Tree.startsWith '#' inside || Tree.startsWord "const" inside ||
      (startsName && (endsParameter rest || Tree.startsColon rest || Tree.startsWith '=' rest)))

/-- The predicates behind `where`, if it comes next. The word has no parameters of its own. -/
def predicates? : TreeReader (Option (List (List Tree) × Bool)) := do
  if ← word? "where" then
    if ← look startsParameters then refuse
    else return some (← items predicate ',' endsPredicate)
  else return none

/-! ### Fields -/

/-- Who may see the item or field; it has no bearing on privacy. -/
def visibility : TreeReader Unit := do
  if ← word? "pub" then
    match ← ahead with
    | .group .parenthesis [.word place] :: rest => if isPlace place then goOn rest
    | .group .parenthesis (.word "in" :: inside) :: rest =>
      goOn rest
      let _ ← within modulePath inside
    | _ => return ()

def namedField : TreeReader DeclaredField := do
  let own ← ownAttributes
  visibility
  let name ← identifier
  sign ':'
  return ⟨own, name, ← type⟩

def numberedField : TreeReader (List Attribute × TypeExpr) := do
  let own ← ownAttributes
  visibility
  return (own, ← type)

def namedFields : TreeReader (List DeclaredField) := do
  let inside ← group .brace
  return (← within (itemsToEnd namedField) inside).1

/-- Fields named by their places. -/
def numberedFields : TreeReader (List DeclaredField) := do
  let inside ← group .parenthesis
  let fields := (← within (itemsToEnd numberedField) inside).1
  return fields.zipIdx.map fun ((own, type), place) => ⟨own, toString place, type⟩

/-- One alternative of an enumeration. -/
def alternative : TreeReader Unit := do
  let _ ← ownAttributes
  visibility
  let _ ← identifier
  match ← ahead with
  | .group .brace _ :: _ =>
    let _ ← namedFields
  | .group .parenthesis _ :: _ =>
    let _ ← numberedFields
  | _ => pure ()
  if ← sign? '=' then discriminant

/-! ### Items -/

def genericsOf (parameters : List GenericParameter × Bool)
    (predicates : Option (List (List Tree) × Bool)) : Generics :=
  let (kept, trail) := predicates.getD ([], false)
  ⟨parameters.1, parameters.2, kept, trail⟩

/-- What follows the name and the parameters of a record: its predicates and its fields. -/
def recordRest : TreeReader (Option (List (List Tree) × Bool) × List DeclaredField) := do
  match ← predicates? with
  | some given =>
    if ← look Tree.startsBrace then return (some given, ← namedFields)
    else
      sign ';'
      return (some given, [])
  | none =>
    if ← look Tree.startsParenthesis then
      let fields ← numberedFields
      let given ← predicates?
      sign ';'
      return (given, fields)
    else if ← look Tree.startsBrace then return (none, ← namedFields)
    else
      sign ';'
      return (none, [])

def item : TreeReader Item := do
  let own ← ownAttributes
  visibility
  match ← anyWord with
  | "struct" =>
    let name ← identifier
    let given ← itemParameters (← nestedAhead)
    let (predicates, fields) ← recordRest
    return ⟨own, name, genericsOf given predicates, .record fields⟩
  | "enum" =>
    let name ← identifier
    let given ← itemParameters (← nestedAhead)
    let predicates ← predicates?
    let inside ← group .brace
    let _ ← within (itemsToEnd alternative) inside
    return ⟨own, name, genericsOf given predicates, .enumeration⟩
  | "union" =>
    let name ← identifier
    let given ← itemParameters (← nestedAhead)
    let predicates ← predicates?
    let _ ← namedFields
    return ⟨own, name, genericsOf given predicates, .union⟩
  | _ => refuse

end TreeReader

/-- The item that the text declares. -/
def Item.ofText? (text : String) : Option Item :=
  match Tree.ofText? text with
  | none => none
  | some trees =>
    match TreeReader.item ⟨trees, true⟩ with
    | some (item, ⟨[], true⟩) => some item
    | _ => none

end RecordPrivacy.Declaration
