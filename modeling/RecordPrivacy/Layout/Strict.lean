import RecordPrivacy.Json.Reader
import RecordPrivacy.Layout

/-!
Reading a record of a strict layout. An object must have every member once, except that an optional
one may be missing; members with other names are passed over. A list must have exactly the members,
in order. Numbers are whole and in range.
-/
namespace RecordPrivacy.Layouts

open Json Json.Reader

/-! ### Single values -/

/-- Describes the value to come, which is not of the expected kind. -/
def unexpected : Reader String := do
  match ← peek with
  | some 110 =>
    skip
    literal [117, 108, 108]
    return "null"
  | some 116 =>
    skip
    literal [114, 117, 101]
    return "boolean `true`"
  | some 102 =>
    skip
    literal [97, 108, 115, 101]
    return "boolean `false`"
  | some 34 =>
    skip
    return "string " ++ Text.quoted (← string)
  | some 91 => return "sequence"
  | some 123 => return "map"
  | some b =>
    if b = 45 ∨ isDigit b then
      match ← numberFrom b with
      | .whole value => return s!"integer `{writeInteger value}`"
      | .float bits => return s!"floating point `{writeFloat bits}`"
    else failNext "expected value"
  | none => failNext "expected value"

def invalidType {α : Type} (expected : String) : Reader α :=
  placed do
    let found ← unexpected
    failUnplaced s!"invalid type: {found}, expected {expected}"

/-- The first byte of a value. -/
def valueStart : Reader UInt8 := do
  match ← peekInked with
  | some b => return b
  | none => failNext "EOF while parsing a value"

def readText : Reader String := do
  if (← valueStart) = 34 then
    skip
    string
  else invalidType "a string"

def readFlag : Reader Bool := do
  let b ← valueStart
  if b = 116 then
    skip
    literal [114, 117, 101]
    return true
  else if b = 102 then
    skip
    literal [97, 108, 115, 101]
    return false
  else invalidType "a boolean"

/-- A whole number below `bound`; `name` is what the range is called. -/
def readNumber (bound : Nat) (name : String) : Reader Nat := do
  let b ← valueStart
  if b = 45 ∨ isDigit b then
    placed do
      match ← numberFrom b with
      | .whole value =>
        if 0 ≤ value ∧ value < bound then return value.toNat
        else failUnplaced s!"invalid value: integer `{writeInteger value}`, expected {name}"
      | .float bits =>
        failUnplaced s!"invalid type: floating point `{writeFloat bits}`, expected {name}"
  else invalidType name

def readByte : Reader UInt8 :=
  return UInt8.ofNat (← readNumber 256 "u8")

def readIndex : Reader Nat :=
  readNumber (Nat.pow 2 32) "u32"

def readList {α : Type} (inside : Nat) (item : Reader α) : Reader (List α) := do
  if (← valueStart) = 91 then placed (list inside item) else invalidType "a sequence"

/-- A number between quotes. -/
def numberKey : Reader Nat := do
  skip
  match ← peek with
  | some b =>
    if b = 45 ∨ isDigit b then
      let value ← readIndex
      if (← peek) = some 34 then
        skip
        return value
      else failNext "expected `\"`"
    else failHere "invalid value: expected key to be a number in quotes"
  | none => failHere "invalid value: expected key to be a number in quotes"

def readMapping {κ : Type} (inside : Nat) (key : Reader κ) : Reader (List (κ × String)) := do
  if (← valueStart) = 123 then placed (object inside key readText) else invalidType "a map"

/-- Puts the entry in its place among those sorted by number; an entry with the same key is
replaced. -/
def insertNumbered (key : Nat) (value : String) : List (Nat × String) → List (Nat × String)
  | [] => [(key, value)]
  | (other, held) :: rest =>
    if key < other then (key, value) :: (other, held) :: rest
    else if key = other then (key, value) :: rest
    else (other, held) :: insertNumbered key value rest

/-- The entries of a mapping with numbers for keys, sorted, the last value for each key. -/
def numberedEntries (entries : List (Nat × String)) : List (Key × String) :=
  (entries.foldl (fun sorted (key, value) => insertNumbered key value sorted) []).map
    fun (key, value) => (.number key, value)

def textEntries (entries : List (String × String)) : List (Key × String) :=
  (sortMembers entries).map fun (key, value) => (.text key, value)

/-! ### Members -/

def readData (inside : Nat) : DataForm → Reader Json
  | .any => value inside
  | .flag => return .bool (← readFlag)
  | .number => return natural (← readIndex)
  | .numbers => return .array ((← readList (inside - 1) readIndex).map natural)
  | .text => return .text (← readText)
  | .optionalText => do
    if (← peekInked) = some 110 then
      skip
      literal [117, 108, 108]
      return .null
    else return .text (← readText)

section
variable {n : Nat}

/-- The content of a member; `nested` reads a nested record, and `inside` levels of lists and
objects are left. -/
def readContent (nested : Fin n → Reader Record) (inside : Nat) : Form n → Reader Content
  | .text => return .leaf (.text (← readText))
  | .bytes => return .leaf (.bytes (← readList (inside - 1) readByte))
  | .sequence => return .leaf (.sequence (← readList (inside - 1) readText))
  | .mapping .text => return .leaf (.mapping (textEntries (← readMapping (inside - 1) textKey)))
  | .mapping .number =>
    return .leaf (.mapping (numberedEntries (← readMapping (inside - 1) numberKey)))
  | .record type => return .record (← nested type)
  | .optional type => do
    if (← peekInked) = some 110 then
      skip
      literal [117, 108, 108]
      return .optional none
    else return .optional (some (← nested type))
  | .absent => do
    skipValue
    return .optional none
  | .data form => return .hidden (← readData inside form)
  | .unwritable => return .hidden (← value inside)

/-- What a member holds that is missing from an object, if it may be missing. -/
def whenMissing? : Form n → Option Content
  | .optional _ => some (.optional none)
  | .absent => some (.optional none)
  | .data .optionalText => some (.hidden .null)
  | _ => none

/-- The members of an object by name, the latest first, up to the object's end. -/
def readMembers (content : Form n → Reader Content) (members : List (Member n)) :
    (fuel : Nat) → (first : Bool) → List (String × Content) →
      Reader (List (String × Content))
  | 0, _, held => return held
  | fuel + 1, first, held => do
    if ← hasMember first then
      let name ← textKey
      match members.find? (·.name == name) with
      | none =>
        colon
        skipValue
        readMembers content members fuel false held
      | some member =>
        if (held.lookup name).isSome then failUnplaced s!"duplicate field `{name}`"
        else
          colon
          let read ← content member.form
          readMembers content members fuel false ((name, read) :: held)
    else return held

/-- The members that were read, in declaration order. -/
def arrange (held : List (String × Content)) : List (Member n) → Reader Record
  | [] => return []
  | member :: rest => do
    match (held.lookup member.name).or (whenMissing? member.form) with
    | none => failUnplaced s!"missing field `{member.name}`"
    | some content => return (member.index, content) :: (← arrange held rest)

/-- The members as the items of a list; `expected` describes the whole, `place` counts. -/
def readItems (content : Form n → Reader Content) (expected : String) :
    (place : Nat) → List (Member n) → Reader Record
  | _, [] => return []
  | place, member :: rest => do
    if ← hasItem (place = 0) then
      let read ← content member.form
      return (member.index, read) :: (← readItems content expected (place + 1) rest)
    else failUnplaced s!"invalid length {place}, expected {expected}"

/-- How a type is called together with the number of its members. -/
def sized (title : String) (members : List (Member n)) : String :=
  if members.length = 1 then s!"{title} with 1 element"
  else s!"{title} with {members.length} elements"

/-- A record with at most `depth` levels of lists and objects. -/
def readRecord (layouts : Layouts n) : (depth : Nat) → Fin n → Reader Record
  | 0, _ => failNext "recursion limit exceeded"
  | depth + 1, type => do
    let layout := layouts type
    let content := readContent (readRecord layouts depth) depth
    let fromList (title : String) : Reader Record := placed do
      entering depth
      enclosed (readItems content (sized title layout.members) 0 layout.members) endList
    match layout.style with
    | .unit =>
      if (← valueStart) = 110 then
        skip
        literal [117, 108, 108]
        return []
      else invalidType s!"unit struct {layout.name}"
    | .tuple =>
      let title := s!"tuple struct {layout.name}"
      if (← valueStart) = 91 then fromList title else invalidType title
    | _ =>
      let title := s!"struct {layout.name}"
      match ← valueStart with
      | 91 => fromList title
      | 123 =>
        placed do
          entering depth
          enclosed (do
            let held ← readMembers content layout.members ((← remaining) + 1) true []
            arrange held layout.members) endObject
      | _ => invalidType title

end

end RecordPrivacy.Layouts
