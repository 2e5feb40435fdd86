import RecordPrivacy.Declaration.Token

/-!
Guard attributes: what an attribute says about privacy, as far as its form goes. A guard stands
alone, is set to a value, or lists clauses. The clauses are read in order and up to the first place
where the form is broken, so that whoever gives them a meaning meets faults of form and of meaning
in the order in which they are written.
-/
namespace RecordPrivacy.Declaration

/-! ### Attributes -/

inductive AttributeContent where
  | bare
  | value
  | list (inside : List Tree)

structure Attribute where
  /-- The attribute's name, unless it is a longer path. -/
  name : Option String
  content : AttributeContent

/-! ### Faults of form -/

inductive Wanted where
  | clause
  | identifier
  | parentheses
  | equalsSign
  | textLiteral
  | comma
  deriving DecidableEq, Repr

def Wanted.text : Wanted → String
  | .clause => "nested attribute"
  | .identifier => "ident"
  | .parentheses => "parentheses"
  | .equalsSign => "`=`"
  | .textLiteral => "string literal"
  | .comma => "`,`"

inductive FormFault where
  | missing (wanted : Wanted)
  /-- Something is missing because nothing is left. -/
  | missingAtEnd (wanted : Wanted)
  | literalForClause
  | signForClause
  deriving DecidableEq, Repr

def FormFault.message : FormFault → String
  | .missing wanted => "expected " ++ wanted.text
  | .missingAtEnd wanted => "unexpected end of input, expected " ++ wanted.text
  | .literalForClause => "unexpected literal in nested attribute, expected ident"
  | .signForClause => "unexpected token in nested attribute, expected ident"

/-- What is missing from these trees; that they are at an end is told for all but a sign. -/
def FormFault.missingFrom (wanted : Wanted) (trees : List Tree) : FormFault :=
  if trees.isEmpty ∧ wanted ≠ .equalsSign ∧ wanted ≠ .comma then .missingAtEnd wanted
  else .missing wanted

/-! ### Clauses -/

/-- Clauses in order, up to the end or to a fault. -/
inductive Listing (α : Type) where
  | done
  | broken (fault : FormFault)
  | clause (head : α) (rest : Listing α)

/-- An action and the text that it is set to; the action has no name if it is a longer path. -/
structure ActionClause where
  name : Option String
  parameter : Except FormFault String

/-- A boundary and the actions in parentheses behind it. -/
structure BoundaryClause where
  name : Option String
  actions : Listing ActionClause

/-- An option of a whole record and the names in parentheses behind it. -/
structure OptionClause where
  name : Option String
  names : Listing (Option String)

/-- A guard with clauses of some kind. -/
inductive Guard (α : Type) where
  | bare
  | value
  | list (clauses : Listing α)

namespace Listing

/-- The listing of the given clauses. -/
def ofList {α : Type} : List α → Listing α
  | [] => .done
  | head :: rest => .clause head (ofList rest)

/-- The clauses before the end or the fault. -/
def toList {α : Type} : Listing α → List α
  | .done => []
  | .broken _ => []
  | .clause head rest => head :: toList rest

/-- Whether the listing ends without a fault. -/
def isWhole {α : Type} : Listing α → Bool
  | .done => true
  | .broken _ => false
  | .clause _ rest => isWhole rest

/-- Takes the clauses one after the other, up to the first error; a fault of form is an error. -/
def foldUntil {α σ ε : Type} (ofFault : FormFault → ε) (step : σ → α → Except ε σ) :
    σ → Listing α → Except ε σ
  | state, .done => .ok state
  | _, .broken fault => .error (ofFault fault)
  | state, .clause head rest =>
    match step state head with
    | .error e => .error e
    | .ok next => foldUntil ofFault step next rest

end Listing

/-! ### Reading clauses -/

namespace Guard

/-- The segments that follow a path's first; tells whether there are any. -/
def moreOfName : List Tree → Except FormFault (Bool × List Tree)
  | .sign ':' true :: .sign ':' _ :: .word _ :: rest =>
    match moreOfName rest with
    | .ok (_, left) => .ok (true, left)
    | .error fault => .error fault
  | .sign ':' true :: .sign ':' _ :: rest => .error (.missingFrom .identifier rest)
  | trees => .ok (false, trees)

/-- The word that a clause's path starts with, and what follows. -/
def firstWord : List Tree → Except FormFault (String × List Tree)
  | [] => .error (.missingAtEnd .clause)
  | .word text :: rest => .ok (text, rest)
  | .literal _ _ :: _ => .error .literalForClause
  | .sign '-' _ :: .literal spelling _ :: _ =>
    .error (if Tree.isNumber spelling then .literalForClause else .signForClause)
  | _ => .error .signForClause

/-- The name of a clause, if its path is a single word, and what follows. -/
def readName (trees : List Tree) : Except FormFault (Option String × List Tree) :=
  let rooted := Tree.startsPath trees
  match firstWord (if rooted then trees.drop 2 else trees) with
  | .error fault => .error fault
  | .ok (word, rest) =>
    match moreOfName rest with
    | .error fault => .error fault
    | .ok (longer, left) => .ok (if rooted || longer then none else some word, left)

/-- Clauses set apart by commas, one more comma allowed at the end. The body of a clause is read
with its name; where it leaves nothing to go on with, it is broken and the reading ends. -/
def readClauses {α : Type} (body : Option String → List Tree → α × Option (List Tree))
    (trees : List Tree) : Listing α :=
  match readName trees with
  | .error fault => .broken fault
  | .ok (name, rest) =>
    match body name rest with
    | (head, none) => .clause head .done
    | (head, some []) => .clause head .done
    | (head, some (.sign ',' _ :: more)) =>
      if more.isEmpty then .clause head .done
      else if more.length < trees.length then .clause head (readClauses body more)
      else .clause head .done
    | (head, some _) => .clause head (.broken (.missing .comma))
termination_by trees.length

def actionBody (name : Option String) (trees : List Tree) : ActionClause × Option (List Tree) :=
  match trees with
  | .sign '=' _ :: rest =>
    match rest with
    | .literal _ (some text) :: left => (⟨name, .ok text⟩, some left)
    | _ => (⟨name, .error (.missingFrom .textLiteral rest)⟩, none)
  | _ => (⟨name, .error (.missingFrom .equalsSign trees)⟩, none)

def boundaryBody (name : Option String) (trees : List Tree) :
    BoundaryClause × Option (List Tree) :=
  match trees with
  | .group .parenthesis inside :: rest => (⟨name, readClauses actionBody inside⟩, some rest)
  | _ => (⟨name, .broken (.missingFrom .parentheses trees)⟩, none)

def nameBody (name : Option String) (trees : List Tree) : Option String × Option (List Tree) :=
  (name, some trees)

def optionBody (name : Option String) (trees : List Tree) : OptionClause × Option (List Tree) :=
  match trees with
  | .group .parenthesis inside :: rest => (⟨name, readClauses nameBody inside⟩, some rest)
  | _ => (⟨name, .broken (.missingFrom .parentheses trees)⟩, none)

/-- What an attribute says as a guard; attributes of another name say nothing. The outermost list
may be empty. -/
def ofAttribute? {α : Type} (body : Option String → List Tree → α × Option (List Tree))
    (given : Attribute) : Option (Guard α) :=
  if given.name = some "guard" then
    match given.content with
    | .bare => some .bare
    | .value => some .value
    | .list inside =>
      some (.list (if inside.isEmpty then .done else readClauses body inside))
  else none

/-- The guards of a field. -/
def ofField (attributes : List Attribute) : List (Guard BoundaryClause) :=
  attributes.filterMap (ofAttribute? boundaryBody)

/-- The guards of a record. -/
def ofRecord (attributes : List Attribute) : List (Guard OptionClause) :=
  attributes.filterMap (ofAttribute? optionBody)

end Guard

end RecordPrivacy.Declaration
