import RecordPrivacy.Declaration.TreeReader
import RecordPrivacy.Declaration.TypeExpr

/-!
Reading paths and the arguments of their segments. Types, bounds and expressions are nested in each
other; the reader of a part is given the readers of what is nested in it.

What is read and not taken apart is kept as it will be written out again, with every sign on its own
but for those of several characters.
-/
namespace RecordPrivacy.Declaration

namespace TreeReader

/-- The readers of what is nested. -/
structure Nested where
  /-- A type; the flag says whether a sum of bounds may follow. -/
  type : (plus : Bool) → TreeReader TypeExpr
  bound : TreeReader Bound
  expression : TreeReader (List Tree)

section
variable (nested : Nested)

/-! ### Constants -/

/-- Whether a number comes next behind a minus sign. -/
def startsNegative : List Tree → Bool
  | .sign '-' _ :: .literal spelling _ :: _ => Tree.isNumber spelling
  | _ => false

/-- Whether a literal comes next; the two truth values are literals, and so is a number with a minus
sign. -/
def startsValue : List Tree → Bool
  | .literal _ _ :: _ => true
  | .word text :: _ => text == "true" || text == "false"
  | trees => startsNegative trees

/-- Whether a constant comes next that cannot be a type. -/
def startsConstant (trees : List Tree) : Bool :=
  startsValue trees || Tree.startsBrace trees

/-- Takes a literal. -/
def value : TreeReader (List Tree) := do
  match ← ahead with
  | .literal spelling text :: rest =>
    goOn rest
    return [.literal spelling text]
  | .sign _ _ :: .literal spelling text :: rest =>
    goOn rest
    return [Tree.lone '-', .literal spelling text]
  | _ => return [.word (← anyWord)]

/-- The value of a constant argument: a literal, a word, or an expression in braces. -/
def constant : TreeReader (List Tree) := do
  if ← look startsValue then value
  else
    match ← ahead with
    | .group .brace inside :: rest =>
      goOn rest
      let _ ← within nested.expression inside
      return [.group .brace inside]
    | _ => return [.word (← identifier)]

/-! ### Arguments -/

/-- Whether the type is one name, perhaps with arguments. -/
def isName : TypeExpr → Bool
  | .path false [] _ _ => true
  | _ => false

/-- Whether a lifetime comes next that is not the first of a sum of bounds. -/
def startsLoneLifetime : List Tree → Bool
  | .lifetime _ :: rest => !Tree.startsWith '+' rest
  | _ => false

/-- The bounds on a name among the arguments, perhaps none, up to a comma or the closing bracket. -/
def argumentBounds : TreeReader (List Tree) := do
  let (bounds, trailing) ← items nested.bound '+' fun trees =>
    Tree.startsWith ',' trees || Tree.startsWith '>' trees
  return separated '+' trailing (bounds.map Bound.trees)

/-- An argument in angle brackets; a name may be set to a constant or a type, or have bounds. -/
def argument : TreeReader Argument := do
  if ← look startsLoneLifetime then return .lifetime (← lifetime)
  else if ← look startsConstant then return .other (← constant nested)
  else
    let type ← nested.type true
    if isName type then
      if ← sign? '=' then
        let given ←
          if ← look startsConstant then constant nested else pure (← nested.type true).trees
        return .other (type.trees ++ Tree.lone '=' :: given)
      else if ← sign? ':' then
        return .other (type.trees ++ Tree.lone ':' :: (← argumentBounds nested))
      else return .ofType type
    else return .ofType type

/-- The arguments in angle brackets. -/
def angledArguments (marked : Bool) : TreeReader Arguments := do
  sign '<'
  let (arguments, trailing) ← items (argument nested) ',' (Tree.startsWith '>')
  sign '>'
  return .angled marked arguments trailing

/-! ### Paths -/

/-- A path that is being read. -/
structure Segments where
  qualified : Bool
  front : List Tree
  name : String
  arguments : Arguments
  /-- Whether no segment has arguments. -/
  isPlain : Bool

def Segments.trees (s : Segments) : List Tree :=
  s.front ++ .word s.name :: s.arguments.trees

def Segments.type (s : Segments) : TypeExpr :=
  .path s.qualified s.front s.name s.arguments

def isPathWord (word : String) : Bool :=
  isIdentifier word || ["super", "self", "crate", "Self"].contains word

def startsPathWord : List Tree → Bool
  | .word text :: _ => isPathWord text
  | _ => false

/-- The words that stand for a place and take no arguments. -/
def isPlace (word : String) : Bool :=
  ["super", "self", "crate"].contains word

def startsAngled (trees : List Tree) : Bool :=
  Tree.startsWith '<' trees && !Tree.startsWithJoined ['<', '='] trees &&
    !Tree.startsWithJoined ['<', '<', '='] trees

def startsMarkedAngled (trees : List Tree) : Bool :=
  Tree.startsPath trees && Tree.startsWith '<' (trees.drop 2)

/-- One segment of a path: its name and its arguments. In an expression arguments stand behind a
path sign only. -/
def segment (inExpression : Bool) : TreeReader (String × Arguments) := do
  let name ← anyWord
  if isPlace name then return (name, .none)
  else if isPathWord name then
    if !inExpression && (← look startsAngled) then return (name, ← angledArguments nested false)
    else if ← look startsMarkedAngled then
      pathSign
      return (name, ← angledArguments nested true)
    else return (name, .none)
  else refuse

/-- The segments that follow. -/
def moreSegments (inExpression : Bool) : (fuel : Nat) → Segments → TreeReader Segments
  | 0, segments => return segments
  | fuel + 1, segments => do
    let follows ← look fun trees =>
      Tree.startsPath trees && !Tree.startsParenthesis (trees.drop 2)
    if follows then
      pathSign
      let (name, arguments) ← segment nested inExpression
      moreSegments inExpression fuel { segments with
        front := segments.trees ++ Tree.pathSign
        name := name
        arguments := arguments
        isPlain := segments.isPlain && arguments.isNone }
    else return segments

/-- The segments of a path behind its front. -/
def segmentsFrom (inExpression qualified : Bool) (front : List Tree) : TreeReader Segments := do
  let (name, arguments) ← segment nested inExpression
  moreSegments nested inExpression ((← ahead).length + 1)
    ⟨qualified, front, name, arguments, arguments.isNone⟩

def unqualifiedPath (inExpression : Bool) : TreeReader Segments := do
  let front := if ← pathSign? then Tree.pathSign else []
  segmentsFrom nested inExpression false front

/-- The type that a qualified path starts with, and the trait that it is seen as. -/
def qualifier : TreeReader (List Tree) := do
  sign '<'
  let self ← nested.type true
  let seen ← do
    if ← word? "as" then
      pure (.word "as" :: (← unqualifiedPath nested false).trees)
    else pure []
  sign '>'
  pathSign
  return Tree.lone '<' :: (self.trees ++ seen ++ Tree.lone '>' :: Tree.pathSign)

def path (inExpression : Bool) : TreeReader Segments := do
  if ← look (Tree.startsWith '<') then
    segmentsFrom nested inExpression true (← qualifier nested)
  else unqualifiedPath nested inExpression

/-- The call of a macro, if the path that has been read is the name of one. -/
def macroCall? (segments : Segments) : TreeReader (Option (List Tree)) := do
  let isCall ← look fun trees =>
    Tree.startsWith '!' trees && !Tree.startsWithJoined ['!', '='] trees
  if isCall && segments.isPlain && !segments.qualified then
    sign '!'
    match ← ahead with
    | .group delimiter inside :: rest =>
      goOn rest
      return some (segments.trees ++ [Tree.lone '!', .group delimiter inside])
    | _ => refuse
  else return none

end

end TreeReader

end RecordPrivacy.Declaration
