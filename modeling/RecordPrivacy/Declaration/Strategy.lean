import RecordPrivacy.Boundary
import RecordPrivacy.Declaration.Guard
import RecordPrivacy.Schema

/-!
What guards mean. The guards of a field make it untouched, a nested record, or the bearer of
directives; the guards of a record list the actions that the record's type carries out itself. Names
have to be known, an action has to go with its boundary, and neither is said twice on one field.
Whether a parameter makes sense is not asked here.
-/
namespace RecordPrivacy.Declaration

inductive DeclarationError where
  | form (fault : FormFault)
  | unknownBoundary (name : Option String)
  | invalidDirective (boundary : Boundary) (name : Option String)
  | duplicateDirective (boundary : Boundary) (action : Action)
  | nestedWithDirectives
  | repeatedBareGuard
  | fieldValue
  | unknownOption (name : Option String)
  | unknownOverride (name : Option String)
  | recordValue
  | enumeration
  | union
  deriving DecidableEq, Repr

namespace DeclarationError

/-- A name in quotes; a path that is no name is a question mark. -/
def showName (name : Option String) : String :=
  name.getD "?"

def message : DeclarationError → String
  | .form fault => fault.message
  | .unknownBoundary name =>
    "unknown boundary `" ++ showName name ++ "`; expected `receive`, `load`, `store` or `send`"
  | .invalidDirective boundary name =>
    "`" ++ boundary.text ++ "." ++ showName name ++ "` is not a valid directive; " ++
      "expected one of receive(hash), load(decrypt), store(encrypt), send(mask), send(redact)"
  | .duplicateDirective boundary action =>
    "duplicate `" ++ boundary.text ++ "." ++ action.text ++ "` directive on the same field"
  | .nestedWithDirectives =>
    "a nested #[guard] field cannot also carry directives; " ++
      "put the directives on the nested record's own fields"
  | .repeatedBareGuard => "multiple bare #[guard] attributes specified on the same field"
  | .fieldValue => "name-value syntax is not supported for #[guard]"
  | .unknownOption name =>
    "unknown container option `" ++ showName name ++ "`; expected `overrides(...)`"
  | .unknownOverride name =>
    "unknown override `" ++ showName name ++ "`; expected hash, decrypt, encrypt, mask or redact"
  | .recordValue => "name-value syntax is not supported for container-level #[guard]"
  | .enumeration => "`Guarded` can only be derived for structs"
  | .union => "`Guarded` cannot be derived for unions"

end DeclarationError

/-! ### Fields -/

inductive Strategy where
  | untouched
  | nested
  | directives (directives : List Directive)
  deriving DecidableEq, Repr

/-- The action of a name under a boundary. -/
def actionOf? (boundary : Boundary) (name : Option String) : Option Action :=
  (name.bind Action.ofText?).filter (·.boundary = boundary)

/-- Adds the directive of a clause to those found so far. -/
def addAction (boundary : Boundary) (found : List Directive) (clause : ActionClause) :
    Except DeclarationError (List Directive) :=
  match actionOf? boundary clause.name with
  | none => .error (.invalidDirective boundary clause.name)
  | some action =>
    match clause.parameter with
    | .error fault => .error (.form fault)
    | .ok parameter =>
      if found.any (·.action = action) then .error (.duplicateDirective boundary action)
      else .ok (found ++ [⟨action, parameter⟩])

/-- Adds the directives of a boundary. -/
def addBoundary (found : List Directive) (clause : BoundaryClause) :
    Except DeclarationError (List Directive) :=
  match clause.name.bind Boundary.ofText? with
  | none => .error (.unknownBoundary clause.name)
  | some boundary => clause.actions.foldUntil .form (addAction boundary) found

/-- What the guards met so far say. -/
structure Gathered where
  isNested : Bool
  directives : List Directive
  deriving DecidableEq, Repr

def Gathered.add (found : Gathered) : Guard BoundaryClause → Except DeclarationError Gathered
  | .bare =>
    if found.isNested then .error .repeatedBareGuard
    else if found.directives.isEmpty then .ok { found with isNested := true }
    else .error .nestedWithDirectives
  | .value => .error .fieldValue
  | .list clauses =>
    if found.isNested then .error .nestedWithDirectives
    else
      match clauses.foldUntil .form addBoundary found.directives with
      | .error e => .error e
      | .ok directives => .ok { found with directives := directives }

def Gathered.addAll : Gathered → List (Guard BoundaryClause) → Except DeclarationError Gathered
  | found, [] => .ok found
  | found, guard :: rest =>
    match found.add guard with
    | .error e => .error e
    | .ok next => next.addAll rest

def Gathered.strategy (found : Gathered) : Strategy :=
  if found.isNested then .nested
  else if found.directives.isEmpty then .untouched
  else .directives found.directives

/-- The strategy that the guards of a field ask for. -/
def Strategy.ofGuards (guards : List (Guard BoundaryClause)) : Except DeclarationError Strategy :=
  (Gathered.addAll ⟨false, []⟩ guards).map Gathered.strategy

/-- The strategy that the attributes of a field ask for. -/
def Strategy.ofAttributes (attributes : List Attribute) : Except DeclarationError Strategy :=
  Strategy.ofGuards (Guard.ofField attributes)

/-! ### Records -/

/-- Adds the action of a name, unless it is there already. -/
def addOverride (found : List Action) (name : Option String) :
    Except DeclarationError (List Action) :=
  match name.bind Action.ofText? with
  | none => .error (.unknownOverride name)
  | some action => .ok (if action ∈ found then found else found ++ [action])

def addOption (found : List Action) (clause : OptionClause) :
    Except DeclarationError (List Action) :=
  if clause.name = some "overrides" then clause.names.foldUntil .form addOverride found
  else .error (.unknownOption clause.name)

/-- The actions that the guards of a record override, after those already found. A guard that stands
alone says nothing about a record. -/
def overridesFrom : List Action → List (Guard OptionClause) →
    Except DeclarationError (List Action)
  | found, [] => .ok found
  | found, .bare :: rest => overridesFrom found rest
  | _, .value :: _ => .error .recordValue
  | found, .list clauses :: rest =>
    match clauses.foldUntil .form addOption found with
    | .error e => .error e
    | .ok next => overridesFrom next rest

/-- The actions that a record with these attributes overrides. -/
def overridesOf (attributes : List Attribute) : Except DeclarationError (List Action) :=
  overridesFrom [] (Guard.ofRecord attributes)

end RecordPrivacy.Declaration
