import RecordPrivacy.Declaration.TypeExpr

/-!
The parameters of a record type and the bounds on them. A type parameter that a nested record
depends on has to be guarded itself; every type parameter has to outlive everything, since plans are
kept by type; and what is guarded has to be copied, which is asked of the record as a whole. Added
bounds follow those that were declared, and defaults are left out.
-/
namespace RecordPrivacy.Declaration

inductive GenericParameter where
  | lifetime (attributes : List Tree) (name : String) (bounds : List Tree)
  | type (attributes : List Tree) (name : String) (bounds : List (List Tree))
  | constant (attributes : List Tree) (name : String) (kind : List Tree)

namespace GenericParameter

def isLifetime : GenericParameter → Bool
  | .lifetime _ _ _ => true
  | _ => false

/-- The name of a type parameter. -/
def typeName? : GenericParameter → Option String
  | .type _ name _ => some name
  | _ => none

/-- Adds a bound to a type parameter. -/
def addBound (bound : List Tree) : GenericParameter → GenericParameter
  | .type attributes name bounds => .type attributes name (bounds ++ [bound])
  | other => other

/-- The parameter as it is declared. -/
def declared : GenericParameter → List Tree
  | .lifetime attributes name bounds =>
    attributes ++ .lifetime name ::
      (if bounds.isEmpty then [] else Tree.lone ':' :: bounds)
  | .type attributes name bounds =>
    attributes ++ .word name ::
      (if bounds.isEmpty then [] else Tree.lone ':' :: separated '+' false bounds)
  | .constant attributes name kind =>
    attributes ++ .word "const" :: .word name :: Tree.lone ':' :: kind

/-- The parameter as it is passed on. -/
def passed : GenericParameter → List Tree
  | .lifetime _ name _ => [.lifetime name]
  | .type _ name _ => [.word name]
  | .constant _ name _ => [.word name]

end GenericParameter

structure Generics where
  parameters : List GenericParameter
  /-- Whether a comma follows the last parameter. -/
  parametersTrail : Bool
  predicates : List (List Tree)
  /-- Whether a comma follows the last predicate. -/
  predicatesTrail : Bool

namespace Generics

def typeNames (g : Generics) : List String :=
  g.parameters.filterMap GenericParameter.typeName?

/-- Adds the bound to the type parameters with these names. -/
def boundAmong (g : Generics) (names : List String) (bound : List Tree) : Generics :=
  { g with parameters := g.parameters.map fun p =>
      match p.typeName? with
      | some name => if name ∈ names then p.addBound bound else p
      | none => p }

/-- Adds the bound to every type parameter. -/
def boundAll (g : Generics) (bound : List Tree) : Generics :=
  { g with parameters := g.parameters.map (GenericParameter.addBound bound) }

def addPredicate (g : Generics) (predicate : List Tree) : Generics :=
  { g with predicates := g.predicates ++ [predicate], predicatesTrail := false }

/-- The parameters in angle brackets, written one by one, lifetimes first. -/
def bracketed (g : Generics) (write : GenericParameter → List Tree) : List Tree :=
  if g.parameters.isEmpty then []
  else
    Tree.lone '<' ::
      (arrange (g.parameters.map fun p => (p.isLifetime, write p)) g.parametersTrail ++
        [Tree.lone '>'])

/-- The predicates behind `where`, if there are any. -/
def whereClause (g : Generics) : List Tree :=
  if g.predicates.isEmpty then []
  else .word "where" :: separated ',' g.predicatesTrail g.predicates

end Generics

end RecordPrivacy.Declaration
