import RecordPrivacy.Declaration.Outline
import RecordPrivacy.Proofs.Lists

/-! Type parameters in types.

A type mentions a parameter wherever the parameter is the last segment of a path in it, outside markers
(`TypeExpr.mentions`). What is collected of a type are the parameters that it mentions outside wrappers,
each once, behind those found before (`TypeExpr.collect_eq`, `TypeExpr.collect_addsOnce`). The fields of a
record are searched one by one, each search going on from what was found before, so that in the end there
are the parameters that some nested record mentions (`PlacedField.foldl_collect_addsOnce`). -/
namespace RecordPrivacy.Declaration

/-! ### Mentions -/

mutual

/-- The type parameters that the type mentions, one by one, outside markers; those that stand in
wrappers only if `through`. -/
def TypeExpr.mentions (through : Bool) (parameters : List String) : TypeExpr → List String
  | .path _ _ name arguments =>
    if name = "PhantomData" then []
    else arguments.mentions through parameters ++ [name].filter (· ∈ parameters)
  | .parenthesized inner => if through then inner.mentions through parameters else []
  | .grouped inner => if through then inner.mentions through parameters else []
  | .sum _ _ => []
  | .other _ => []

def Arguments.mentions (through : Bool) (parameters : List String) : Arguments → List String
  | .none => []
  | .angled _ arguments _ => mentionsOf through parameters arguments

def mentionsOf (through : Bool) (parameters : List String) : List Argument → List String
  | [] => []
  | .ofType type :: rest => type.mentions through parameters ++ mentionsOf through parameters rest
  | .lifetime _ :: rest => mentionsOf through parameters rest
  | .other _ :: rest => mentionsOf through parameters rest

end

/-- No type parameter is mentioned in wrappers. -/
def TypeExpr.HidesNone (parameters : List String) (type : TypeExpr) : Prop :=
  type.mentions false parameters = type.mentions true parameters

variable {parameters : List String}

mutual

theorem TypeExpr.mentions_sublist : ∀ type : TypeExpr,
    (type.mentions false parameters).Sublist (type.mentions true parameters)
  | .path _ _ name arguments => by
    rw [TypeExpr.mentions, TypeExpr.mentions]
    split
    · exact .slnil
    · exact arguments.mentions_sublist.append (.refl _)
  | .parenthesized _ => List.nil_sublist _
  | .grouped _ => List.nil_sublist _
  | .sum _ _ => .slnil
  | .other _ => .slnil

theorem Arguments.mentions_sublist : ∀ arguments : Arguments,
    (arguments.mentions false parameters).Sublist (arguments.mentions true parameters)
  | .none => .slnil
  | .angled _ arguments _ => mentionsOf_sublist arguments

theorem mentionsOf_sublist : ∀ arguments : List Argument,
    (mentionsOf false parameters arguments).Sublist (mentionsOf true parameters arguments)
  | [] => .slnil
  | .ofType type :: rest => type.mentions_sublist.append (mentionsOf_sublist rest)
  | .lifetime _ :: rest => mentionsOf_sublist rest
  | .other _ :: rest => mentionsOf_sublist rest

end

/-! ### What is collected -/

theorem addFound_eq (name : String) (found : List String) :
    addFound parameters name found = ([name].filter (· ∈ parameters)).foldl addNew found := by
  by_cases hparameter : name ∈ parameters <;> by_cases hfound : name ∈ found <;>
    simp [addFound, addNew, hparameter, hfound]

mutual

/-- What is collected are the mentions outside wrappers, each of them once. -/
theorem TypeExpr.collect_eq (found : List String) : ∀ type : TypeExpr,
    type.collect parameters found = (type.mentions false parameters).foldl addNew found
  | .path _ _ name arguments => by
    rw [TypeExpr.collect, TypeExpr.mentions]
    split
    · rfl
    · rw [addFound_eq, arguments.collect_eq, List.foldl_append]
  | .parenthesized _ => rfl
  | .grouped _ => rfl
  | .sum _ _ => rfl
  | .other _ => rfl

theorem Arguments.collect_eq (found : List String) : ∀ arguments : Arguments,
    arguments.collect parameters found =
      (arguments.mentions false parameters).foldl addNew found
  | .none => rfl
  | .angled _ arguments _ => collectArguments_eq found arguments

theorem collectArguments_eq (found : List String) : ∀ arguments : List Argument,
    collectArguments parameters found arguments =
      (mentionsOf false parameters arguments).foldl addNew found
  | [] => rfl
  | .ofType type :: rest => by
    rw [collectArguments, mentionsOf, collectArguments_eq, type.collect_eq, List.foldl_append]
  | .lifetime _ :: rest => collectArguments_eq found rest
  | .other _ :: rest => collectArguments_eq found rest

end

theorem TypeExpr.collect_addsOnce (type : TypeExpr) (found : List String) :
    AddsOnce (· ∈ type.mentions false parameters) found (type.collect parameters found) := by
  rw [type.collect_eq]
  exact addsOnce_foldl_addNew

/-! ### What is collected of fields -/

namespace PlacedField

/-- The field is a nested record that mentions the parameter outside wrappers. -/
def Mentions (parameters : List String) (p : PlacedField) (name : String) : Prop :=
  p.strategy = .nested ∧ name ∈ p.field.type.holding.2.mentions false parameters

theorem collect_addsOnce (p : PlacedField) (found : List String) :
    AddsOnce (p.Mentions parameters) found (p.collect parameters found) := by
  unfold collect
  cases hstrategy : p.strategy with
  | nested =>
    refine (p.field.type.holding.2.collect_addsOnce found).congr fun name => ?_
    simp [Mentions, hstrategy]
  | untouched => exact .none (by simp [Mentions, hstrategy])
  | directives directives => exact .none (by simp [Mentions, hstrategy])

theorem foldl_collect_addsOnce (placed : List PlacedField) (found : List String) :
    AddsOnce (fun name => ∃ p ∈ placed, p.Mentions parameters name) found
      (placed.foldl (collect parameters) found) := by
  induction placed generalizing found with
  | nil => exact .none (by simp)
  | cons first rest ih =>
    rw [List.foldl_cons]
    refine ((first.collect_addsOnce found).trans (ih _)).congr fun name => ?_
    rw [List.exists_mem_cons_iff]

end PlacedField

namespace Outline
variable (library : String) (item : Item) (overrides : List Action) {placed : List PlacedField}

/-- The parameters that have to be guarded are those that a nested record mentions outside wrappers. -/
theorem mem_guardedParameters {name : String} :
    name ∈ (ofFields library item overrides placed).guardedParameters ↔
      ∃ p ∈ placed, p.strategy = .nested ∧
        name ∈ p.field.type.holding.2.mentions false item.generics.typeNames :=
  (PlacedField.foldl_collect_addsOnce placed []).of_nil.2 name

end Outline

end RecordPrivacy.Declaration
