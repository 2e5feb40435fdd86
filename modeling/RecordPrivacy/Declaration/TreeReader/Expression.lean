import RecordPrivacy.Bytes
import RecordPrivacy.Declaration.TreeReader.Attribute

/-!
Reading expressions: operands with signs in front, joined by operators and conversions. An operand
is a literal, a path, a macro's call, a record or something in parentheses or braces, with calls,
indices and accesses to members behind it. Other expressions are refused, and so are comparisons one
after the other. An expression is kept as it will be written out again.
-/
namespace RecordPrivacy.Declaration

namespace TreeReader

/-! ### Operators -/

inductive OperatorKind where
  | assignment
  | logical
  | comparison
  | arithmetic
  deriving DecidableEq, Repr

/-- The operators between operands; of two that start alike the longer comes first. -/
def operators : List (String × OperatorKind) :=
  [("+=", .assignment), ("-=", .assignment), ("*=", .assignment), ("/=", .assignment),
    ("%=", .assignment), ("^=", .assignment), ("&=", .assignment), ("|=", .assignment),
    ("<<=", .assignment), (">>=", .assignment), ("&&", .logical), ("||", .logical),
    ("<<", .arithmetic), (">>", .arithmetic), ("==", .comparison), ("<=", .comparison),
    ("!=", .comparison), (">=", .comparison), ("+", .arithmetic), ("-", .arithmetic),
    ("*", .arithmetic), ("/", .arithmetic), ("%", .arithmetic), ("^", .arithmetic),
    ("&", .arithmetic), ("|", .arithmetic), ("<", .comparison), (">", .comparison)]

/-- The operator that comes next, if one does. -/
def operator? (trees : List Tree) : Option (List Char × OperatorKind) :=
  (operators.find? fun (text, _) => Tree.startsWithJoined text.toList trees).map
    fun (text, kind) => (text.toList, kind)

/-- Whether a comparison that stands before the operator is still an operand of what follows it. -/
def OperatorKind.keepsComparison : OperatorKind → Bool
  | .assignment => false
  | .logical => false
  | .comparison => true
  | .arithmetic => true

/-! ### Places of members -/

/-- The number that digits of a base, set apart by underscores at will, stand for. -/
def digitsValue? (base : Nat) : (found : Nat) → List Char → Option Nat
  | found, [] => some found
  | found, '_' :: rest => digitsValue? base found rest
  | found, c :: rest =>
    match Bytes.hexValue? c with
    | some digit => if digit < base then digitsValue? base (base * found + digit) rest else none
    | none => none

/-- The number that a literal without a suffix stands for. -/
def wholeValue? (spelling : String) : Option Nat :=
  match spelling.toList with
  | '0' :: 'x' :: digits => digitsValue? 16 0 digits
  | '0' :: 'o' :: digits => digitsValue? 8 0 digits
  | '0' :: 'b' :: digits => digitsValue? 2 0 digits
  | digits => digitsValue? 10 0 digits

/-- The places that a literal tells: one, or two with a point between them. -/
def places? (spelling : String) : Option (List Nat) :=
  ((spelling.splitOn ".").filter (· ≠ "")).mapM fun part =>
    match wholeValue? part with
    | some place => if place < Nat.pow 2 32 then some place else none
    | none => none

def placeTree (place : Nat) : Tree :=
  .literal (toString place) none

section
variable (nested : Nested)

/-! ### Operands -/

/-- Expressions set apart by commas, in parentheses. -/
def callArguments : TreeReader Tree := do
  let inside ← group .parenthesis
  let (arguments, trailing) ← within (itemsToEnd nested.expression) inside
  return .group .parenthesis (separated ',' trailing arguments)

/-- A number or a name. -/
def member : TreeReader Tree := do
  match ← ahead with
  | .literal spelling _ :: rest =>
    goOn rest
    match places? spelling with
    | some [place] => if spelling.endsWith "." then refuse else return placeTree place
    | _ => refuse
  | _ => return .word (← identifier)

/-- A member; behind a name there may be type arguments, if those of a call follow them. -/
def memberAccess : TreeReader (List Tree) := do
  let isNamed := !(← look Tree.startsLiteral)
  let name ← member
  if isNamed && (← look Tree.startsPath) then
    pathSign
    let arguments ← angledArguments nested true
    return name :: arguments.trees ++ [← callArguments nested]
  else return [name]

/-- What stands behind the point of an access: a member, or the places that one number tells. A
number that ends in a point has a member behind it. -/
def access : TreeReader (List Tree) := do
  match ← ahead with
  | .literal spelling _ :: rest =>
    goOn rest
    match places? spelling with
    | some places =>
      let trees := separated '.' false (places.map fun place => [placeTree place])
      if spelling.endsWith "." then return trees ++ Tree.lone '.' :: (← memberAccess nested)
      else return trees
    | none => refuse
  | _ => memberAccess nested

/-- Whether an access comes next; a point before another point is none. -/
def startsAccess (trees : List Tree) : Bool :=
  Tree.startsWith '.' trees && !Tree.startsWithJoined ['.', '.'] trees &&
    !Tree.startsWord "await" (trees.drop 1)

/-- The calls, indices and accesses behind an operand. -/
def trailers : (fuel : Nat) → TreeReader (List Tree)
  | 0 => return []
  | fuel + 1 => do
    if ← look Tree.startsParenthesis then
      let arguments ← callArguments nested
      return arguments :: (← trailers fuel)
    else if ← look startsAccess then
      sign '.'
      let trees ← access nested
      return Tree.lone '.' :: trees ++ (← trailers fuel)
    else if ← look Tree.startsBracket then
      let index ← within nested.expression (← group .bracket)
      return .group .bracket index :: (← trailers fuel)
    else return []

/-- A field of a record: its member, and its value unless the name stands for it. Its attributes are
not kept. -/
def fieldValue : TreeReader (List Tree) := do
  let _ ← attributes nested
  let isNamed := !(← look Tree.startsLiteral)
  let name ← member
  if isNamed && !(← look (Tree.startsWith ':')) then return [name]
  else
    sign ':'
    return name :: Tree.lone ':' :: (← nested.expression)

/-- The fields of a record, and behind two points the record that gives the others. -/
def fieldValues : (fuel : Nat) → TreeReader (List Tree)
  | 0 => refuse
  | fuel + 1 => do
    if (← ahead).isEmpty then return []
    else if ← joinedSign? ['.', '.'] then
      let rest ← if (← ahead).isEmpty then pure [] else nested.expression
      return Tree.joinedSign ['.', '.'] ++ rest
    else
      let field ← fieldValue nested
      if (← ahead).isEmpty then return field
      else
        sign ','
        return field ++ Tree.lone ',' :: (← fieldValues fuel)

/-- A path, a macro's call or a record. -/
def pathOperand : TreeReader (List Tree) := do
  let segments ← path nested true
  match ← macroCall? segments with
  | some trees => return trees
  | none =>
    match ← ahead with
    | .group .brace inside :: rest =>
      goOn rest
      let fields ← within (fieldValues nested (inside.length + 1)) inside
      return segments.trees ++ [.group .brace fields]
    | _ => return segments.trees

/-- Whether a path may come next. -/
def startsOperandPath (trees : List Tree) : Bool :=
  startsPathWord trees || Tree.startsPath trees || Tree.startsWith '<' trees

def operand : TreeReader (List Tree) := do
  if ← look startsValue then value
  else
    match ← ahead with
    | .group .parenthesis inside :: rest =>
      goOn rest
      let (parts, trailing) ← within (itemsToEnd nested.expression) inside
      return [.group .parenthesis (separated ',' trailing parts)]
    | .group .brace inside :: rest =>
      goOn rest
      let _ ← within (nested.expression <* ended) inside
      return [.group .brace inside]
    | trees => if startsOperandPath trees then pathOperand nested else refuse

/-- The signs in front of an operand. -/
def signsInFront : (fuel : Nat) → TreeReader (List Tree)
  | 0 => return []
  | fuel + 1 => do
    if ← sign? '&' then
      let mutability := if ← word? "mut" then [Tree.word "mut"] else []
      return Tree.lone '&' :: mutability ++ (← signsInFront fuel)
    else
      match ← ahead with
      | .sign c _ :: _ =>
        if c = '*' ∨ c = '!' ∨ c = '-' then
          sign c
          return Tree.lone c :: (← signsInFront fuel)
        else return []
      | _ => return []

/-- An operand with all that belongs to it. -/
def wholeOperand : TreeReader (List Tree) := do
  let front ← signsInFront ((← ahead).length + 1)
  let first ← operand nested
  return front ++ first ++ (← trailers nested ((← ahead).length + 1))

/-! ### Operations -/

/-- Whether something comes next that would belong to an operand. -/
def startsTrailer (trees : List Tree) : Bool :=
  Tree.startsWith '.' trees && !Tree.startsWithJoined ['.', '.'] trees ||
    Tree.startsWith '?' trees || Tree.startsBracket trees || Tree.startsParenthesis trees

/-- An operand with its conversions. -/
structure Converted where
  trees : List Tree
  /-- Whether the last conversion is to a type that ends in a place. -/
  endsInPlace : Bool

def endsInPlace (type : List Tree) : Bool :=
  match type.getLast? with
  | some (.word text) => isPlace text
  | _ => false

/-- The conversions that follow. A conversion is no operand that a call, an index or an access could
stand behind. -/
def conversions : (fuel : Nat) → Converted → TreeReader Converted
  | 0, operand => return operand
  | fuel + 1, operand => do
    if ← word? "as" then
      let type := (← nested.type false).trees
      if ← look startsTrailer then refuse
      else conversions fuel ⟨operand.trees ++ .word "as" :: type, endsInPlace type⟩
    else return operand

def convertedOperand : TreeReader Converted := do
  let first ← wholeOperand nested
  conversions nested ((← ahead).length + 1) ⟨first, false⟩

/-- The operand as it is written before an operator. An angle bracket behind a type would look like
the start of its arguments, so such a conversion gets parentheses. -/
def Converted.before (operand : Converted) (operator : List Char) : List Tree :=
  if operand.endsInPlace && (operator = ['<'] || operator = ['<', '<']) then
    [.group .parenthesis operand.trees]
  else operand.trees

/-- The operations on the first operand. The flag tells whether a comparison has been read that
another one would be chained to. -/
def operations : (fuel : Nat) → (compared : Bool) → Converted → TreeReader (List Tree)
  | 0, _, first => return first.trees
  | fuel + 1, compared, first => do
    match operator? (← ahead) with
    | some (chars, kind) =>
      if compared && kind = .comparison then refuse
      else
        joinedSign chars
        let right ← convertedOperand nested
        let next := kind = .comparison || (compared && kind.keepsComparison)
        return first.before chars ++ Tree.joinedSign chars ++ (← operations fuel next right)
    | none => return first.trees

/-- An expression, given the readers of what is nested in it. -/
def expressionStep : TreeReader (List Tree) := do
  let first ← convertedOperand nested
  operations nested ((← ahead).length + 1) false first

end

end TreeReader

end RecordPrivacy.Declaration
