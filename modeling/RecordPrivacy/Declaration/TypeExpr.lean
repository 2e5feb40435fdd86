import RecordPrivacy.Declaration.Token

/-!
Types as they are written. Of a path its last segment is taken apart, since it tells what the type
is; what stands before it is kept as it is. Parentheses, and the invisible groups that a macro
leaves, are wrappers around a type. Bounds that stand for a type are a sum. Every other type is kept
as it is and not looked into.
-/
namespace RecordPrivacy.Declaration

/-- What a type may be asked to satisfy: to outlive a lifetime, or a trait. -/
inductive Bound where
  | lifetime (name : String)
  | trait (parenthesized : Bool) (trees : List Tree)

namespace Bound

def isTrait : Bound → Bool
  | .lifetime _ => false
  | .trait _ _ => true

def trees : Bound → List Tree
  | .lifetime name => [.lifetime name]
  | .trait true trees => [.group .parenthesis trees]
  | .trait false trees => trees

end Bound

mutual

inductive TypeExpr where
  /-- A path; `front` is all before its last segment, and a qualified path starts with a type. -/
  | path (qualified : Bool) (front : List Tree) (name : String) (arguments : Arguments)
  | parenthesized (inner : TypeExpr)
  | grouped (inner : TypeExpr)
  /-- Bounds set apart by plus signs; `trailing` if one follows the last. -/
  | sum (bounds : List Bound) (trailing : Bool)
  | other (trees : List Tree)

/-- What follows the name of a segment. -/
inductive Arguments where
  | none
  /-- Arguments in angle brackets, perhaps behind a path sign; `trailing` if a comma follows the
  last. -/
  | angled (marked : Bool) (arguments : List Argument) (trailing : Bool)

inductive Argument where
  | ofType (type : TypeExpr)
  | lifetime (name : String)
  | other (trees : List Tree)

end

/-! ### Separators -/

/-- The items, set apart by a sign, with one more behind the last if `trailing`. -/
def separated (sign : Char) (trailing : Bool) : List (List Tree) → List Tree
  | [] => []
  | [item] => if trailing then item ++ [Tree.lone sign] else item
  | item :: rest => item ++ Tree.lone sign :: separated sign trailing rest

/-- Each item with whether a comma follows it. -/
def withCommas {α : Type} (trailing : Bool) : List α → List (α × Bool)
  | [] => []
  | [item] => [(item, trailing)]
  | item :: rest => (item, true) :: withCommas trailing rest

/-- Writes the items with their own commas, and one where an item would follow another without. -/
def joinWithCommas : (ended : Bool) → List (List Tree × Bool) → List Tree
  | _, [] => []
  | ended, (item, comma) :: rest =>
    (if ended then [] else [Tree.lone ',']) ++ item ++ (if comma then [Tree.lone ','] else []) ++
      joinWithCommas comma rest

/-- Lifetimes come before all else, and keep their commas. -/
def lifetimesFirst (lifetimes others : List (List Tree × Bool)) : List Tree :=
  let ended := (lifetimes.getLast?.map (·.2)).getD true
  lifetimes.flatMap (fun (item, comma) => item ++ if comma then [Tree.lone ','] else []) ++
    joinWithCommas ended others

/-! ### Writing types out -/

namespace Argument

def isLifetime : Argument → Bool
  | .lifetime _ => true
  | _ => false

end Argument

/-- The trees of marked arguments, lifetimes first. -/
def arrange (arguments : List (Bool × List Tree)) (trailing : Bool) : List Tree :=
  let items := withCommas trailing arguments
  let lifetimes := items.filter (·.1.1)
  let others := items.filter (!·.1.1)
  lifetimesFirst (lifetimes.map fun (item, comma) => (item.2, comma))
    (others.map fun (item, comma) => (item.2, comma))

mutual

def TypeExpr.trees : TypeExpr → List Tree
  | .path _ front name arguments => front ++ .word name :: arguments.trees
  | .parenthesized inner => [.group .parenthesis inner.trees]
  | .grouped inner => inner.trees
  | .sum bounds trailing => separated '+' trailing (bounds.map Bound.trees)
  | .other trees => trees

def Arguments.trees : Arguments → List Tree
  | .none => []
  | .angled marked arguments trailing =>
    (if marked then Tree.pathSign else []) ++ Tree.lone '<' ::
      (arrange (argumentTrees arguments) trailing ++ [Tree.lone '>'])

def argumentTrees : List Argument → List (Bool × List Tree)
  | [] => []
  | .ofType type :: rest => (false, type.trees) :: argumentTrees rest
  | .lifetime name :: rest => (true, [.lifetime name]) :: argumentTrees rest
  | .other trees :: rest => (false, trees) :: argumentTrees rest

end

/-- Whether there are no arguments to speak of; empty brackets count as none. -/
def Arguments.isEmpty : Arguments → Bool
  | .none => true
  | .angled _ arguments _ => arguments.isEmpty

def Arguments.isNone : Arguments → Bool
  | .none => true
  | .angled _ _ _ => false

end RecordPrivacy.Declaration
