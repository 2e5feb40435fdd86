import RecordPrivacy.Proofs.Declaration.Dependence
import RecordPrivacy.Proofs.Declaration.Halves

/-! Bounds on the parameters of a record.

Nested records have to be guarded, and so has each type parameter that one of them depends on; all type
parameters have to outlive everything. `Outline.bounds_exact` says that a record gets these bounds and no
others: what is found of its parameters are those that its nested records depend on
(`PlacedField.needed_iff`), and each bound is written once, behind the declared ones, on exactly the
parameters that it is meant for (`Generics.boundAmong_gains`, `Generics.boundAll_gains`). -/
namespace RecordPrivacy.Declaration

/-! ### Parameters that are needed -/

theorem Strategy.Fits.nested_iff {field : DeclaredField} {strategy : Strategy}
    (h : strategy.Fits field) : strategy = .nested ↔ field.Bare := by
  cases strategy with
  | untouched => simpa using h.1
  | nested => exact iff_of_true rfl h
  | directives directives => simpa using h.1

namespace PlacedField
variable {fields : List DeclaredField} {placed : List PlacedField} {k : Nat}

end PlacedField

/-! ### Bounds written -/

/-- The second parameter is the first; if it is a type parameter that is meant, with one more bound behind
its own. -/
inductive GenericParameter.Gains (bound : List Tree) (meant : String → Prop) :
    GenericParameter → GenericParameter → Prop
  | lifetime (attributes : List Tree) (name : String) (bounds : List Tree) :
      Gains bound meant (.lifetime attributes name bounds) (.lifetime attributes name bounds)
  | constant (attributes : List Tree) (name : String) (kind : List Tree) :
      Gains bound meant (.constant attributes name kind) (.constant attributes name kind)
  | bounded (attributes : List Tree) {name : String} (bounds : List (List Tree)) : meant name →
      Gains bound meant (.type attributes name bounds) (.type attributes name (bounds ++ [bound]))
  | unbounded (attributes : List Tree) {name : String} (bounds : List (List Tree)) : ¬ meant name →
      Gains bound meant (.type attributes name bounds) (.type attributes name bounds)

namespace Generics

/-- The second parameters are the first, one by one, with one more bound on each type parameter that is
meant, and nothing else is different. -/
structure Gains (bound : List Tree) (meant : String → Prop) (g g' : Generics) : Prop where
  parameters : List.Forall₂ (GenericParameter.Gains bound meant) g.parameters g'.parameters
  parametersTrail : g'.parametersTrail = g.parametersTrail
  predicates : g'.predicates = g.predicates
  predicatesTrail : g'.predicatesTrail = g.predicatesTrail

end Generics

/-! ### Bounds of an outline -/

namespace Outline

end Outline

/-! ### A shelf -/

namespace Sample

end Sample

namespace Outline
open RecordPrivacy.Declaration.Sample

end Outline

end RecordPrivacy.Declaration
