import RecordPrivacy.Json.Scan

/-!
Reading any JSON value, and passing over one. A value that is passed over has to be JSON, but its
numbers may be out of range, its strings need not be UTF-8, and its depth is not limited.
-/
namespace RecordPrivacy.Json

namespace Reader

/-- Any value, with at most `depth` levels of lists and objects. -/
def value : (depth : Nat) → Reader Json
  | 0 => failNext "recursion limit exceeded"
  | depth + 1 => do
    match ← peekInked with
    | none => failNext "EOF while parsing a value"
    | some 110 =>
      skip
      literal [117, 108, 108]
      return .null
    | some 116 =>
      skip
      literal [114, 117, 101]
      return .bool true
    | some 102 =>
      skip
      literal [97, 108, 115, 101]
      return .bool false
    | some 34 =>
      skip
      return .text (← string)
    | some 91 => return .array (← list depth (value depth))
    | some 123 => return .object (sortMembers (← object depth textKey (value depth)))
    | some b =>
      if b = 45 ∨ isDigit b then return (← numberFrom b).json else failNext "expected value"

/-! ### Passing over -/

/-- Passes over a string up to its closing quote. -/
def skipString : (fuel : Nat) → Reader Unit
  | 0 => failHere "EOF while parsing a string"
  | fuel + 1 => do
    match ← peek with
    | none => failHere "EOF while parsing a string"
    | some 34 => skip
    | some 92 =>
      skip
      let mark ← nextInString
      if mark = 117 then
        let _ ← hexUnit
        skipString fuel
      else if mark ∈ [34, 92, 47, 98, 102, 110, 114, 116] then skipString fuel
      else failHere "invalid escape"
    | some b =>
      if b < 32 then failHere "control character (\\u0000-\\u001F) found while parsing a string"
      else
        skip
        skipString fuel

def skipExponent : Reader Unit := do
  skip
  let sign ← peek
  if sign = some 43 ∨ sign = some 45 then skip
  match ← next with
  | some b =>
    if isDigit b then
      let _ ← skipDigits
    else failHere "invalid number"
  | none => failHere "invalid number"

def skipNumberEnd : Reader Unit := do
  match ← peek with
  | some 101 => skipExponent
  | some 69 => skipExponent
  | _ => return ()

/-- Passes over a number after its sign. -/
def skipNumber : Reader Unit := do
  match ← next with
  | some b =>
    if b = 48 then
      match ← peek with
      | some d => if isDigit d then failNext "invalid number"
      | none => return ()
    else if isDigit b then
      let _ ← skipDigits
    else failHere "invalid number"
  | none => failHere "invalid number"
  match ← peek with
  | some 46 =>
    skip
    if (← skipDigits) = 0 then failNext "invalid number"
    skipNumberEnd
  | _ => skipNumberEnd

/-- An unclosed list or object. -/
inductive Frame where
  | list
  | object

def Frame.closing : Frame → UInt8
  | .list => 93
  | .object => 125

def Frame.commaReason : Frame → String
  | .list => "expected `,` or `]`"
  | .object => "expected `,` or `\x7d`"

def Frame.endReason : Frame → String
  | .list => "EOF while parsing a list"
  | .object => "EOF while parsing an object"

/-- Passes over a key and its colon. -/
def skipKey : Reader Unit := do
  match ← peekInked with
  | some 34 => skip
  | some _ => failNext "key must be a string"
  | none => failNext "EOF while parsing an object"
  skipString ((← remaining) + 1)
  colon

/-- Passes over a value that is neither a list nor an object, or over the opening mark of one. -/
def skipStart : Reader (Option Frame) := do
  match ← peekInked with
  | none => failNext "EOF while parsing a value"
  | some 110 =>
    skip
    literal [117, 108, 108]
    return none
  | some 116 =>
    skip
    literal [114, 117, 101]
    return none
  | some 102 =>
    skip
    literal [97, 108, 115, 101]
    return none
  | some 34 =>
    skip
    skipString ((← remaining) + 1)
    return none
  | some 91 =>
    skip
    return some .list
  | some 123 =>
    skip
    return some .object
  | some b =>
    if b = 45 then
      skip
      skipNumber
      return none
    else if isDigit b then
      skipNumber
      return none
    else failNext "expected value"

/-- Closes what is to be closed after a value, or right after an opening mark, up to where the next
value starts; answers the frames that are then open, the innermost first. -/
def skipClosings : (fuel : Nat) → (afterValue : Bool) → List Frame → Reader (List Frame)
  | 0, _, frames => return frames
  | _, _, [] => return []
  | fuel + 1, afterValue, frame :: outer => do
    match ← peekInked with
    | none => failNext frame.endReason
    | some b =>
      if b = frame.closing then
        skip
        skipClosings fuel true outer
      else if ¬afterValue then
        return frame :: outer
      else if b = 44 then
        skip
        return frame :: outer
      else failNext frame.commaReason

def skipFrames : (fuel : Nat) → List Frame → Reader Unit
  | 0, _ => return ()
  | fuel + 1, frames => do
    let opened ← skipStart
    let inner := match opened with
      | some frame => frame :: frames
      | none => frames
    match ← skipClosings ((← remaining) + 1) opened.isNone inner with
    | [] => return ()
    | .list :: outer => skipFrames fuel (.list :: outer)
    | .object :: outer =>
      skipKey
      skipFrames fuel (.object :: outer)

/-- Passes over any value. -/
def skipValue : Reader Unit := do
  skipFrames ((← remaining) + 1) []

end Reader

/-- The value that the bytes spell. -/
def parse (data : Bytes) : Except String Json :=
  readAll (Reader.value depthLimit) data

end RecordPrivacy.Json
