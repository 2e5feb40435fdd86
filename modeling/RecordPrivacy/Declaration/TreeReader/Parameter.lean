import RecordPrivacy.Declaration.Generics
import RecordPrivacy.Declaration.TreeReader.Attribute

/-!
Reading the parameters in angle brackets: those of a declared item, and those that `for` binds. Of
each parameter there is what the item's implementations need, and its trees with the default that it
may have.
-/
namespace RecordPrivacy.Declaration

namespace TreeReader

section
variable (nested : Nested)

def endsParameter (trees : List Tree) : Bool :=
  Tree.startsWith ',' trees || Tree.startsWith '>' trees

/-- Lifetimes set apart by plus signs, as trees. -/
def lifetimeBounds (ended : List Tree → Bool) : TreeReader (List Tree) := do
  let (bounds, trailing) ← items lifetime '+' ended
  return separated '+' trailing (bounds.map fun name => [.lifetime name])

/-- Trees behind a sign, or nothing at all. -/
def behind (char : Char) (trees : List Tree) : List Tree :=
  if trees.isEmpty then [] else Tree.lone char :: trees

def lifetimeParameter (own : List Tree) : TreeReader (GenericParameter × List Tree) := do
  let name ← lifetime
  let bounds ← if ← sign? ':' then lifetimeBounds endsParameter else pure []
  return (.lifetime own name bounds, own ++ .lifetime name :: behind ':' bounds)

def constantParameter (own : List Tree) : TreeReader (GenericParameter × List Tree) := do
  word "const"
  let name ← identifier
  sign ':'
  let kind := (← nested.type true).trees
  let default ← if ← sign? '=' then constant nested else pure []
  return (.constant own name kind,
    own ++ .word "const" :: .word name :: Tree.lone ':' :: kind ++ behind '=' default)

def typeParameter (own : List Tree) : TreeReader (GenericParameter × List Tree) := do
  let name ← identifier
  let (bounds, trailing) ←
    if ← sign? ':' then
      items nested.bound '+' fun trees => endsParameter trees || Tree.startsWith '=' trees
    else pure ([], false)
  let default ← if ← sign? '=' then pure (← nested.type true).trees else pure []
  let written := bounds.map Bound.trees
  return (.type own name written,
    own ++ .word name :: behind ':' (separated '+' trailing written) ++ behind '=' default)

/-- A parameter with its attributes. -/
def parameter : TreeReader (GenericParameter × List Tree) := do
  let own := (← attributes nested).flatMap (·.2)
  if ← look Tree.startsLifetime then lifetimeParameter own
  else if ← look (Tree.startsWord "const") then constantParameter nested own
  else typeParameter nested own

/-- A parameter of an item, which need not have a name. -/
def itemParameter : TreeReader GenericParameter := do
  let own := (← attributes nested).flatMap (·.2)
  if ← word? "_" then return .type own "_" []
  else if ← look Tree.startsLifetime then return (← lifetimeParameter own).1
  else if ← look (Tree.startsWord "const") then return (← constantParameter nested own).1
  else return (← typeParameter nested own).1

/-- The parameters behind `for`, if they come next. -/
def binder? : TreeReader (Option (List Tree)) := do
  if ← word? "for" then
    sign '<'
    let (parameters, trailing) ← items (parameter nested) ',' (Tree.startsWith '>')
    sign '>'
    return some (.word "for" :: Tree.lone '<' ::
      (separated ',' trailing (parameters.map (·.2)) ++ [Tree.lone '>']))
  else return none

/-- The parameters of an item, and whether a comma follows the last. -/
def itemParameters : TreeReader (List GenericParameter × Bool) := do
  if ← sign? '<' then
    let read ← items (itemParameter nested) ',' (Tree.startsWith '>')
    sign '>'
    return read
  else return ([], false)

end

end TreeReader

end RecordPrivacy.Declaration
