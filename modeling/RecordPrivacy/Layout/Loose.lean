import RecordPrivacy.Layout.Strict

/-!
Fitting JSON to a record of a loose layout: members that are missing are empty, members with other
names are dropped, and so is what stands for a member that is always absent. All others must have
their form.
-/
namespace RecordPrivacy.Layouts

def fitText : Json → Option String
  | .text value => some value
  | _ => none

def fitByte : Json → Option UInt8
  | .integer value => if 0 ≤ value ∧ value < 256 then some (UInt8.ofNat value.toNat) else none
  | _ => none

/-- A number below 2^32 in decimal digits, perhaps behind a plus sign. -/
def fitIndex (text : String) : Option Nat :=
  let digits := match text.toList with | '+' :: digits => digits | digits => digits
  if digits.isEmpty ∨ ¬digits.all Char.isDigit then none
  else
    let value := digits.foldl (fun n d => 10 * n + (d.toNat - 48)) 0
    if value < Nat.pow 2 32 then some value else none

def fitList {α : Type} (item : Json → Option α) : Json → Option (List α)
  | .array items => items.mapM item
  | _ => none

def fitMapping : KeyForm → Json → Option (List (Key × String))
  | .text, .object members => do
    let entries ← members.mapM fun (key, value) => do return (key, ← fitText value)
    return textEntries entries
  | .number, .object members => do
    let entries ← members.mapM fun (key, value) => do return (← fitIndex key, ← fitText value)
    return numberedEntries entries
  | _, _ => none

section
variable {n : Nat}

def fitContent (nested : Fin n → Json → Option Record) (form : Form n) (json : Json) :
    Option Content :=
  match form with
  | .text => return .leaf (.text (← fitText json))
  | .bytes => return .leaf (.bytes (← fitList fitByte json))
  | .sequence => return .leaf (.sequence (← fitList fitText json))
  | .mapping keys => return .leaf (.mapping (← fitMapping keys json))
  | .record type => return .record (← nested type json)
  | .optional type =>
    match json with
    | .null => return .optional none
    | _ => return .optional (some (← nested type json))
  | .absent => return .optional none
  | .data _ => return .hidden json
  | .unwritable => return .hidden json

/-- The record of the type that the JSON describes, for records nested no deeper than `depth`. -/
def fitTo (layouts : Layouts n) : (depth : Nat) → Fin n → Json → Option Record
  | 0, _, _ => none
  | depth + 1, type, .object members =>
    (layouts type).members.mapM fun member => do
      match members.lookup member.name with
      | some json => return (member.index, ← fitContent (fitTo layouts depth) member.form json)
      | none => return (member.index, emptyContent (empty layouts) member.form)
  | _, _, _ => none

def fit (layouts : Layouts n) (type : Fin n) (json : Json) : Option Record :=
  fitTo layouts Json.depthLimit type json

/-- Reads a record of the type from the text of its JSON. -/
def read (layouts : Layouts n) (type : Fin n) (data : Bytes) : Except String Record :=
  match (layouts type).style with
  | .loose =>
    match Json.parse data with
    | .error e => .error e
    | .ok json =>
      match fit layouts type json with
      | some record => .ok record
      | none => .error "value does not fit the type"
  | _ => Json.readAll (readRecord layouts Json.depthLimit type) data

end

end RecordPrivacy.Layouts
