import RecordPrivacy.Json.Value
import RecordPrivacy.Json.Decimal

/-!
The compact text of JSON: no blanks, and in strings nothing escaped but the quote, the backslash and
the control characters below the blank.
-/
namespace RecordPrivacy.Json

def escape (c : Char) : List Char :=
  if c = '"' then ['\\', '"']
  else if c = '\\' then ['\\', '\\']
  else if c.toNat = 8 then ['\\', 'b']
  else if c.toNat = 12 then ['\\', 'f']
  else if c = '\n' then ['\\', 'n']
  else if c = '\r' then ['\\', 'r']
  else if c = '\t' then ['\\', 't']
  else if c.toNat < 32 then
    ['\\', 'u', '0', '0', Bytes.hexDigit (c.toNat / 16), Bytes.hexDigit (c.toNat % 16)]
  else [c]

def writeText (text : String) : String :=
  String.ofList ('"' :: text.toList.flatMap escape ++ ['"'])

def writeBool (value : Bool) : String :=
  if value then "true" else "false"

def writeInteger (value : Int) : String :=
  if value < 0 then "-" ++ toString value.natAbs else toString value.natAbs

mutual

def write : Json → String
  | .null => "null"
  | .bool value => writeBool value
  | .integer value => writeInteger value
  | .float bits => writeFloat bits
  | .text value => writeText value
  | .array items => "[" ++ writeItems items ++ "]"
  | .object members => "\x7b" ++ writeMembers members ++ "\x7d"

def writeItems : List Json → String
  | [] => ""
  | [item] => write item
  | item :: rest => write item ++ "," ++ writeItems rest

def writeMembers : List (String × Json) → String
  | [] => ""
  | [(key, value)] => writeText key ++ ":" ++ write value
  | (key, value) :: rest => writeText key ++ ":" ++ write value ++ "," ++ writeMembers rest

end

end RecordPrivacy.Json
