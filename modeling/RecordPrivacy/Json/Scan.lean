import RecordPrivacy.Json.Writer
import RecordPrivacy.Text.Utf8

/-!
Scanning JSON text, byte by byte: blanks, literals, strings, numbers, and the marks around lists and
objects. A fault names its reason and, as soon as it is known, the byte index it is reported at; the
whole text turns that index into a line and a column.
-/
namespace RecordPrivacy.Json

structure Scan where
  rest : Bytes
  index : Nat

structure Fault where
  reason : String
  place : Option Nat

/-- A reader keeps its place when it fails. -/
abbrev Reader := EStateM Fault Scan

namespace Reader

/-! ### Single bytes -/

def peek : Reader (Option UInt8) :=
  return (← get).rest.head?

def skip : Reader Unit :=
  modify fun s => match s.rest with
    | [] => s
    | _ :: rest => ⟨rest, s.index + 1⟩

def next : Reader (Option UInt8) := do
  let b ← peek
  skip
  return b

/-- Fails at the place reached. -/
def failHere {α : Type} (reason : String) : Reader α := do
  throw ⟨reason, some (← get).index⟩

/-- Fails at the byte to come. -/
def failNext {α : Type} (reason : String) : Reader α := do
  let s ← get
  throw ⟨reason, some (if s.rest.isEmpty then s.index else s.index + 1)⟩

/-- Fails at a place that is still to be determined. -/
def failUnplaced {α : Type} (reason : String) : Reader α :=
  throw ⟨reason, none⟩

/-- Gives a failure without a place the one that has been reached. -/
def placed {α : Type} (reader : Reader α) : Reader α :=
  tryCatch reader fun fault => do
    match fault.place with
    | some _ => throw fault
    | none => throw ⟨fault.reason, some (← get).index⟩

/-- Reads the closing mark after the body, also after one that fails, whose failure then counts. -/
def enclosed {α : Type} (body : Reader α) (close : Reader Unit) : Reader α := do
  let result ← tryCatch (Except.ok <$> body) fun fault => do
    tryCatch close fun _ => pure ()
    return .error fault
  match result with
  | .error fault => throw fault
  | .ok a =>
    close
    return a

/-- An upper bound for the number of bytes to come. -/
def remaining : Reader Nat :=
  return (← get).rest.length

def isBlank (b : UInt8) : Bool :=
  b == 32 || b == 10 || b == 9 || b == 13

/-- The first byte that is not blank. -/
def peekInked : Reader (Option UInt8) := do
  modify fun s =>
    let blanks := s.rest.takeWhile isBlank
    ⟨s.rest.drop blanks.length, s.index + blanks.length⟩
  peek

def isDigit (b : UInt8) : Bool :=
  48 ≤ b && b ≤ 57

/-- The rest of a literal whose first letter has been read. -/
def literal : Bytes → Reader Unit
  | [] => return ()
  | expected :: rest => do
    match ← next with
    | none => failHere "EOF while parsing a value"
    | some b => if b = expected then literal rest else failHere "expected ident"

/-! ### Strings -/

def hexDigits : (count : Nat) → Nat → Reader (Option Nat)
  | 0, value => return some value
  | count + 1, value => do
    match ← next with
    | none => return none
    | some b =>
      match Bytes.hexValue? (Char.ofNat b.toNat) with
      | some digit => hexDigits count (16 * value + digit)
      | none =>
        modify fun s => ⟨s.rest.drop count, s.index + count⟩
        return none

/-- Four hexadecimal digits. -/
def hexUnit : Reader Nat := do
  let s ← get
  if s.rest.length < 4 then
    set (Scan.mk [] (s.index + s.rest.length))
    failHere "EOF while parsing a string"
  else
    match ← hexDigits 4 0 with
    | some value => return value
    | none => failHere "invalid escape"

def nextInString : Reader UInt8 := do
  match ← next with
  | some b => return b
  | none => failHere "EOF while parsing a string"

def peekInString : Reader UInt8 := do
  match ← peek with
  | some b => return b
  | none => failHere "EOF while parsing a string"

/-- The byte of the second half of a pair's escape. -/
def pairMark (mark : UInt8) : Reader Unit := do
  let b ← peekInString
  skip
  if b = mark then return () else failHere "unexpected end of hex escape"

/-- A character given by one or two units. -/
def unicodeEscape : Reader Bytes := do
  let unit ← hexUnit
  if 0xDC00 ≤ unit ∧ unit ≤ 0xDFFF then failHere "lone leading surrogate in hex escape"
  else if unit < 0xD800 ∨ 0xDBFF < unit then
    return Utf8.encode (String.singleton (Char.ofNat unit))
  else
    pairMark 92
    pairMark 117
    let second ← hexUnit
    if second < 0xDC00 ∨ 0xDFFF < second then failHere "lone leading surrogate in hex escape"
    else
      let code := (unit - 0xD800) * 1024 + (second - 0xDC00) + 0x10000
      return Utf8.encode (String.singleton (Char.ofNat code))

def escapeSequence : Reader Bytes := do
  match ← nextInString with
  | 34 => return [34]
  | 92 => return [92]
  | 47 => return [47]
  | 98 => return [8]
  | 102 => return [12]
  | 110 => return [10]
  | 114 => return [13]
  | 116 => return [9]
  | 117 => unicodeEscape
  | _ => failHere "invalid escape"

/-- The bytes up to the closing quote, after those already read, which are held in reverse. -/
def stringBytes : (fuel : Nat) → Bytes → Reader Bytes
  | 0, _ => failHere "EOF while parsing a string"
  | fuel + 1, read => do
    match ← peek with
    | none => failHere "EOF while parsing a string"
    | some b =>
      skip
      if b = 34 then return read.reverse
      else if b = 92 then
        let bytes ← escapeSequence
        stringBytes fuel (bytes.reverse ++ read)
      else if b < 32 then
        failHere "control character (\\u0000-\\u001F) found while parsing a string"
      else stringBytes fuel (b :: read)

/-- A string whose opening quote has been read. Bytes that are no UTF-8 are found when the string is
complete, and are reported as far before its end as there are bytes from the fault on. -/
def string : Reader String := do
  let bytes ← stringBytes ((← remaining) + 1) []
  match Utf8.decode bytes with
  | .ok value => return value
  | .error fault =>
    let left := bytes.length - fault.index
    throw ⟨"invalid unicode code point", some ((← get).index - left)⟩

/-! ### Numbers -/

inductive Number where
  | whole (value : Int)
  | float (bits : UInt64)

def Number.json : Number → Json
  | .whole value => .integer value
  | .float bits => .float bits

/-- Digits added to a number for as long as it fits into 64 bits: the number, how many digits it
took, and whether it stopped at one that did not fit. -/
def fittingDigits : (fuel value count : Nat) → Reader (Nat × Nat × Bool)
  | 0, value, count => return (value, count, false)
  | fuel + 1, value, count => do
    match ← peek with
    | none => return (value, count, false)
    | some b =>
      if isDigit b then
        let value' := 10 * value + (b.toNat - 48)
        if value' < Nat.pow 2 64 then
          skip
          fittingDigits fuel value' (count + 1)
        else return (value, count, true)
      else return (value, count, false)

/-- Passes over digits and counts them. -/
def skipDigits : Reader Nat := do
  let digits := (← get).rest.takeWhile isDigit
  modify fun s => ⟨s.rest.drop digits.length, s.index + digits.length⟩
  return digits.length

/-- Scales by a power of ten in steps that stay in range. -/
def scaled : (fuel : Nat) → Float → Int → Reader Float
  | 0, f, _ => return f
  | fuel + 1, f, exponent =>
    if exponent.natAbs ≤ 308 then
      let power := Float.ofScientific 1 false exponent.natAbs
      if 0 ≤ exponent then
        let product := f * power
        if product.isInf then failHere "number out of range" else return product
      else return f / power
    else if f == 0.0 then return f
    else if 0 ≤ exponent then failHere "number out of range"
    else scaled fuel (f / 1e308) (exponent + 308)

/-- The float of a number times a power of ten. -/
def fromParts (positive : Bool) (value : Nat) (exponent : Int) : Reader Number := do
  let f ← scaled 8 (Float.ofNat value) exponent
  return .float (if positive then f else -f).toBits

def exponentLimit : Nat := 2147483647

/-- Digits added to an exponent; nothing once it is out of all range. -/
def exponentDigits : (fuel value : Nat) → Reader (Option Nat)
  | 0, value => return some value
  | fuel + 1, value => do
    match ← peek with
    | none => return some value
    | some b =>
      if isDigit b then
        skip
        let value := 10 * value + (b.toNat - 48)
        if exponentLimit < value then return none else exponentDigits fuel value
      else return some value

/-- An exponent, from its letter on. -/
def exponentPart (positive : Bool) (value : Nat) (start : Int) : Reader Number := do
  skip
  let sign ← peek
  if sign = some 43 ∨ sign = some 45 then skip
  match ← next with
  | none => failHere "EOF while parsing a value"
  | some b =>
    if isDigit b then
      match ← exponentDigits (← remaining) (b.toNat - 48) with
      | some exponent =>
        let signed : Int := if sign = some 45 then -exponent else exponent
        fromParts positive value (start + signed)
      | none =>
        if value ≠ 0 ∧ sign ≠ some 45 then failHere "number out of range"
        else
          let _ ← skipDigits
          return .float (if positive then (0.0 : Float) else -0.0).toBits
    else failHere "invalid number"

/-- What may follow the digits of a number that is a float. -/
def floatEnd (positive : Bool) (value : Nat) (exponent : Int) : Reader Number := do
  match ← peek with
  | some 101 => exponentPart positive value exponent
  | some 69 => exponentPart positive value exponent
  | _ => fromParts positive value exponent

/-- A fraction, from its point on. -/
def fractionPart (positive : Bool) (value : Nat) (start : Int) : Reader Number := do
  skip
  let (value, count, full) ← fittingDigits (← remaining) value 0
  if full then
    let _ ← skipDigits
    floatEnd positive value (start - count)
  else if count = 0 then
    match ← peek with
    | some _ => failNext "invalid number"
    | none => failNext "EOF while parsing a value"
  else floatEnd positive value (start - count)

/-- What may follow the digits of a number. -/
def numberEnd (positive : Bool) (value : Nat) : Reader Number := do
  match ← peek with
  | some 46 => fractionPart positive value 0
  | some 101 => exponentPart positive value 0
  | some 69 => exponentPart positive value 0
  | _ =>
    if positive then return .whole value
    else if value = 0 ∨ Nat.pow 2 63 < value then return .float (-(Float.ofNat value)).toBits
    else return .whole (-value)

/-- A number after its sign. -/
def number (positive : Bool) : Reader Number := do
  match ← next with
  | none => failHere "EOF while parsing a value"
  | some 48 =>
    match ← peek with
    | some b => if isDigit b then failNext "invalid number" else numberEnd positive 0
    | none => numberEnd positive 0
  | some b =>
    if isDigit b then
      let (value, _, full) ← fittingDigits (← remaining) (b.toNat - 48) 0
      if full then
        let exponent ← skipDigits
        match ← peek with
        | some 46 => fractionPart positive value exponent
        | _ => floatEnd positive value exponent
      else numberEnd positive value
    else failHere "invalid number"

/-- A number that begins with the given byte, which has only been looked at. -/
def numberFrom (first : UInt8) : Reader Number := do
  if first = 45 then
    skip
    number false
  else number true

/-! ### Lists and objects -/

/-- Whether a list has another item; `first` before the first one. -/
def hasItem (first : Bool) : Reader Bool := do
  match ← peekInked with
  | none => failNext "EOF while parsing a list"
  | some 93 => return false
  | some b =>
    if first then return true
    else if b = 44 then
      skip
      match ← peekInked with
      | some 93 => failNext "trailing comma"
      | some _ => return true
      | none => failNext "EOF while parsing a value"
    else failNext "expected `,` or `]`"

/-- Whether an object has another member; its opening quote is then read. -/
def hasMember (first : Bool) : Reader Bool := do
  match ← peekInked with
  | none => failNext "EOF while parsing an object"
  | some 125 => return false
  | some b =>
    if first then
      if b = 34 then return true else failNext "key must be a string"
    else if b = 44 then
      skip
      match ← peekInked with
      | some 34 => return true
      | some 125 => failNext "trailing comma"
      | some _ => failNext "key must be a string"
      | none => failNext "EOF while parsing a value"
    else failNext "expected `,` or `\x7d`"

def colon : Reader Unit := do
  match ← peekInked with
  | some 58 => skip
  | some _ => failNext "expected `:`"
  | none => failNext "EOF while parsing an object"

def endList : Reader Unit := do
  match ← peekInked with
  | some 93 => skip
  | some 44 =>
    skip
    match ← peekInked with
    | some 93 => failNext "trailing comma"
    | _ => failNext "trailing characters"
  | some _ => failNext "trailing characters"
  | none => failNext "EOF while parsing a list"

def endObject : Reader Unit := do
  match ← peekInked with
  | some 125 => skip
  | some 44 => failNext "trailing comma"
  | some _ => failNext "trailing characters"
  | none => failNext "EOF while parsing an object"

/-- The items of a list up to its end, which stays unread. -/
def items {α : Type} (item : Reader α) : (fuel : Nat) → (first : Bool) → Reader (List α)
  | 0, _ => return []
  | fuel + 1, first => do
    if ← hasItem first then
      let a ← item
      let others ← items item fuel false
      return a :: others
    else return []

/-- The members of an object up to its end, which stays unread. -/
def members {κ α : Type} (key : Reader κ) (value : Reader α) :
    (fuel : Nat) → (first : Bool) → Reader (List (κ × α))
  | 0, _ => return []
  | fuel + 1, first => do
    if ← hasMember first then
      let k ← key
      colon
      let a ← value
      let others ← members key value fuel false
      return (k, a) :: others
    else return []

/-- A container may be entered as long as some depth is left inside it. -/
def entering (inside : Nat) : Reader Unit := do
  if inside = 0 then failNext "recursion limit exceeded" else skip

/-- A list whose opening bracket has been seen. -/
def list {α : Type} (inside : Nat) (item : Reader α) : Reader (List α) := do
  entering inside
  enclosed (do items item ((← remaining) + 1) true) endList

/-- A key as it stands, from its opening quote. -/
def textKey : Reader String := do
  skip
  string

/-- An object whose opening brace has been seen. -/
def object {κ α : Type} (inside : Nat) (key : Reader κ) (value : Reader α) :
    Reader (List (κ × α)) := do
  entering inside
  enclosed (do members key value ((← remaining) + 1) true) endObject

/-- Nothing but blanks may follow. -/
def finish : Reader Unit := do
  match ← peekInked with
  | some _ => failNext "trailing characters"
  | none => return ()

end Reader

/-! ### Reports -/

/-- Line and column of a byte index. -/
def lineColumn (data : Bytes) (index : Nat) : Nat × Nat :=
  let before := data.take index
  let lineLength := (before.reverse.takeWhile (· ≠ 10)).length
  (1 + before.count 10, lineLength)

def Fault.message (fault : Fault) (data : Bytes) : String :=
  match fault.place with
  | none => fault.reason
  | some index =>
    let (line, column) := lineColumn data index
    s!"{fault.reason} at line {line} column {column}"

/-- How deep lists and objects may be nested, and one more. -/
def depthLimit : Nat := 128

/-- Runs a reader on the whole of the data. -/
def readAll {α : Type} (reader : Reader α) (data : Bytes) : Except String α :=
  match (do let a ← reader; Reader.finish; return a : Reader α).run ⟨data, 0⟩ with
  | .ok a _ => .ok a
  | .error fault _ => .error (fault.message data)

end RecordPrivacy.Json
