import RecordPrivacy.Declaration.TreeReader.Parameter

/-!
Reading bounds, and the sums of them that stand for types. A trait may bind parameters of its own or
be one that need not hold, but not both; of all paths only a trait's takes arguments in parentheses.
-/
namespace RecordPrivacy.Declaration

namespace TreeReader

section
variable (nested : Nested)

/-- The type of a result behind its arrow, if it comes next. -/
def result : TreeReader (List Tree) := do
  if ← joinedSign? ['-', '>'] then return Tree.arrow ++ (← nested.type false).trees
  else return []

/-- The types in parentheses, and the type of the result behind an arrow. -/
def calledArguments : TreeReader (List Tree) := do
  let inside ← group .parenthesis
  let (types, trailing) ← within (itemsToEnd (nested.type true)) inside
  return .group .parenthesis (separated ',' trailing (types.map TypeExpr.trees)) ::
    (← result nested)

def startsCalledArguments (trees : List Tree) : Bool :=
  Tree.startsParenthesis trees || (Tree.startsPath trees && Tree.startsParenthesis (trees.drop 2))

/-- The path of a trait; empty angle brackets give way to arguments in parentheses. -/
def traitPath : TreeReader (List Tree) := do
  let segments ← unqualifiedPath nested false
  if segments.arguments.isEmpty && (← look startsCalledArguments) then
    let _ ← pathSign?
    return segments.front ++ .word segments.name :: (← calledArguments nested)
  else return segments.trees

def traitTrees : TreeReader (List Tree) := do
  let bound ← binder? nested
  if ← sign? '?' then
    if bound.isSome || (← look (Tree.startsWord "for")) then refuse
    else return Tree.lone '?' :: (← traitPath nested)
  else return bound.getD [] ++ (← traitPath nested)

/-- A bound, given the readers of what is nested in it. -/
def boundStep : TreeReader Bound := do
  match ← ahead with
  | .lifetime name :: rest =>
    goOn rest
    return .lifetime name
  | .group .parenthesis inside :: rest =>
    goOn rest
    return .trait true (← within (traitTrees nested) inside)
  | _ => return .trait false (← traitTrees nested)

/-! ### Sums -/

def startsBound (trees : List Tree) : Bool :=
  match trees with
  | .word _ :: _ => true
  | _ => Tree.startsPath trees || Tree.startsWith '?' trees || Tree.startsLifetime trees ||
    Tree.startsParenthesis trees

/-- The bounds that follow the first, each behind its plus; tells whether a plus follows the
last. -/
def moreBounds : (fuel : Nat) → TreeReader (List Bound × Bool)
  | 0 => return ([], false)
  | fuel + 1 => do
    if ← sign? '+' then
      if ← look startsBound then
        let first ← nested.bound
        let (rest, trailing) ← moreBounds fuel
        return (first :: rest, trailing)
      else return ([], true)
    else return ([], false)

/-- Adds the bounds that follow the first. -/
def sumFrom (first : Bound) (plus : Bool) : TreeReader TypeExpr := do
  if plus then
    let (rest, trailing) ← moreBounds nested ((← ahead).length + 1)
    return .sum (first :: rest) trailing
  else return .sum [first] false

/-- A sum of bounds of which one at least is a trait. -/
def traitSum (plus : Bool) : TreeReader TypeExpr := do
  match ← sumFrom nested (← nested.bound) plus with
  | .sum bounds trailing =>
    if bounds.any Bound.isTrait then return .sum bounds trailing else refuse
  | _ => refuse

/-- The bounds behind one in parentheses: every plus has to be followed by one. -/
def sumBehind (first : Bound) : TreeReader TypeExpr := do
  if ← sign? '+' then
    let (rest, trailing) ← items nested.bound '+' fun _ => false
    return .sum (first :: rest) trailing
  else return .sum [first] false

end

end TreeReader

end RecordPrivacy.Declaration
