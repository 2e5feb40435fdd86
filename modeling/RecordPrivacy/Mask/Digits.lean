import RecordPrivacy.Mask.Keep

/-!
Formats that are runs of digits in some dress: social security numbers, telephone numbers and
payment cards. The digits are picked out of whatever surrounds them, counted, and all but the last
four of them hidden. A refusal says how many digits there were and nothing else about the text.
-/
namespace RecordPrivacy.Mask

def isDigit (c : Char) : Bool :=
  '0' ≤ c && c ≤ '9'

def digits (text : List Char) : List Char :=
  text.filter isDigit

def lastFour (text : List Char) : List Char :=
  text.drop (text.length - 4)

/-- Nine digits; the last four stay. -/
def ssn (text : List Char) : Except String (List Char) :=
  let ds := digits text
  if ds.length = 9 then .ok ("***-**-".toList ++ lastFour ds)
  else .error s!"requires exactly 9 digits, got {ds.length}"

/-- At least seven digits; the last four stay. Ten or more show an area code, in brackets if the
text opens with one. -/
def phone (text : List Char) : Except String (List Char) :=
  let ds := digits text
  if ds.length < 7 then .error s!"requires at least 7 digits, got {ds.length}"
  else if ds.length < 10 then .ok ("***-".toList ++ lastFour ds)
  else if text.head? = some '(' then .ok ("(***) ***-".toList ++ lastFour ds)
  else .ok ("***-***-".toList ++ lastFour ds)

/-- `count` groups of four stars, each followed by the separator. -/
def starGroups (separator : Char) : (count : Nat) → List Char
  | 0 => []
  | count + 1 => star :: star :: star :: star :: separator :: starGroups separator count

/-- Thirteen to nineteen digits; the last four stay. A text with spaces or else dashes is answered
in groups of four with that separator. -/
def card (text : List Char) : Except String (List Char) :=
  let ds := digits text
  let groups := (ds.length - 4 + 3) / 4
  if ds.length < 13 ∨ 19 < ds.length then .error s!"requires 13-19 digits, got {ds.length}"
  else if ' ' ∈ text then .ok (starGroups ' ' groups ++ lastFour ds)
  else if '-' ∈ text then .ok (starGroups '-' groups ++ lastFour ds)
  else .ok (keep 0 4 ds)

end RecordPrivacy.Mask
