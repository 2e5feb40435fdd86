import RecordPrivacy.Description

/-!
Overrides as scripts: steps on the text fields of a record, by name. The first step that fails ends
the script, and what was done before it stays done.
-/
namespace RecordPrivacy

/-- A capability or a literal, by kind and name; the name need not be known. -/
structure Reference where
  kind : Option CapabilityKind
  name : String

/-- The parameter that the reference stands for. -/
def Reference.parameter? (r : Reference) : Option Parameter :=
  match r.kind with
  | some .encryptor => Parameter.resolve? .encrypt r.name
  | some .hasher => Parameter.resolve? .hash r.name
  | some .masker => Parameter.resolve? .mask r.name
  | none => some (.literal r.name)

def Reference.kindText (r : Reference) : String :=
  match r.kind with
  | some kind => kind.text
  | none => "literal"

inductive Change where
  | set (text : String)
  | append (text : String)
  /-- Whether the capability is registered. -/
  | provides (reference : Reference)
  /-- The registered capabilities, for diagnostics. -/
  | describe
  /-- The result of the capability. -/
  | use (reference : Reference)

inductive ScriptStep where
  | change (field : String) (change : Change)
  | fail (error : CapabilityError)

namespace Change

def useOn (capabilities : Capabilities) (reference : Reference) (value : String) :
    Drawn (Except CapabilityError String) :=
  match reference.parameter? with
  | none => return .error (.missingKey reference.kindText)
  | some (.literal text) => return .ok text
  | some (.encryptor algorithm) =>
    match capabilities.encryptor? algorithm with
    | none => return .error (.missingKey reference.kindText)
    | some encryptor => do
      return (← encryptor.encrypt (Utf8.encode value)).map Bytes.toHex
  | some (.hasher algorithm) =>
    match capabilities.hasher? algorithm with
    | none => return .error (.missingKey reference.kindText)
    | some hasher => hasher.hash (Utf8.encode value)
  | some (.masker format) =>
    match capabilities.masker? format with
    | none => return .error (.missingKey reference.kindText)
    | some masker => return masker.mask value

/-- The text that replaces a text. -/
def on (capabilities : Capabilities) (value : String) :
    Change → Drawn (Except CapabilityError String)
  | .set text => return .ok text
  | .append text => return .ok (value ++ text)
  | .provides reference =>
    let provided := (reference.parameter?.map capabilities.provides).getD false
    return .ok (Json.writeBool provided)
  | .describe => return .ok capabilities.describe
  | .use reference => useOn capabilities reference value

end Change

/-- The text of the first field with the name, if it is one, with what puts another in its place. -/
def textField? (field : String) : List String → Record → Option (String × (String → Record))
  | name :: names, (index, content) :: rest =>
    if name = field then
      match content with
      | .leaf (.text value) => some (value, fun text => (index, .leaf (.text text)) :: rest)
      | _ => none
    else (textField? field names rest).map fun (value, put) =>
      (value, fun text => (index, content) :: put text)
  | _, _ => none

/-- Runs the steps on a record whose fields have the names. -/
def runSteps (names : List String) (capabilities : Capabilities) :
    List ScriptStep → Record → Drawn (Record × Except CapabilityError Unit)
  | [], record => return (record, .ok ())
  | .fail error :: _, record => return (record, .error error)
  | .change field change :: rest, record =>
    match textField? field names record with
    | none => return (record, .error (.missingKey "field"))
    | some (value, put) => do
      match ← change.on capabilities value with
      | .error e => return (record, .error e)
      | .ok text => runSteps names capabilities rest (put text)

/-- The override that runs the script of an action, and declines an action without one. -/
def Override.scripted (names : List String) (scripts : List (Action × List ScriptStep)) :
    Override := fun action capabilities record =>
  match scripts.lookup action with
  | none => return (record, .none)
  | some steps => do
    let (record, result) ← runSteps names capabilities steps record
    return (record, some result)

end RecordPrivacy
