import RecordPrivacy.Proofs.Plan.Nesting
import RecordPrivacy.Proofs.Traversal.Exact

/-! Traversals below a nested field.

What a plan below a field does to a record, the nested type's own plan does to the record inside
(`FieldPlan.run_below`); a plan that leads elsewhere leaves the field alone. So a traversal of the
plans of a type carries out, among others, those of the nested type on the record inside, in their
order: if it gets through, so do they (`traverse_below_ok`), and if it fails below the field, they
fail in the same way (`traverse_below_error`). The transforms answer alike whatever is drawn, since
the plans in between may draw as well. -/
namespace RecordPrivacy

/-! ### The record inside a field -/

namespace Content
variable {content : Content} {held : Record}

end Content

namespace Record
variable {record inner held : Record} {content : Content}

section
variable {i : Nat} (present : content.inner? = some held)
  (inside : record.content? i = some (content.withInner inner)) (path : List Nat)
include present inside

end

end Record

/-! ### One plan -/

namespace Transform
variable {t : Transform}

theorem Visit.deterministic (steady : t.Deterministic) {before after after' : List (Element × Piece)}
    {fault fault' : Option (Element × Failure)} {supply₁ supply₂ supply₃ supply₄ : Entropy}
    (h : t.Visit before supply₁ after fault supply₂)
    (h' : t.Visit before supply₃ after' fault' supply₄) : after' = after ∧ fault' = fault := by
  induction h generalizing supply₃ after' with
  | nil =>
    cases h'
    exact ⟨rfl, rfl⟩
  | @stop _ p _ _ supply _ hp =>
    have hsame := congrArg Prod.fst hp
    cases h' with
    | @stop _ _ _ _ _ _ hp' =>
      cases (hsame.symm.trans (steady p supply supply₃)).trans (congrArg Prod.fst hp')
      exact ⟨rfl, rfl⟩
    | step hp' _ => cases (hsame.symm.trans (steady p supply supply₃)).trans (congrArg Prod.fst hp')
  | @step _ p _ _ _ _ supply _ _ hp _ ih =>
    have hsame := congrArg Prod.fst hp
    cases h' with
    | stop hp' => cases (hsame.symm.trans (steady p supply supply₃)).trans (congrArg Prod.fst hp')
    | step hp' h' =>
      cases (hsame.symm.trans (steady p supply supply₃)).trans (congrArg Prod.fst hp')
      obtain ⟨rfl, rfl⟩ := ih h'
      exact ⟨rfl, rfl⟩

theorem Deterministic.leaf (steady : t.Deterministic) (leaf : Leaf) (supply supply' : Entropy) :
    (t.leaf leaf supply').1 = (t.leaf leaf supply).1 := by
  obtain ⟨hshape, hvisit⟩ := t.leaf_visit leaf supply
  obtain ⟨hshape', hvisit'⟩ := t.leaf_visit leaf supply'
  obtain ⟨helements, hfault⟩ := hvisit.deterministic steady hvisit'
  exact Prod.ext (Leaf.ext_elements (hshape'.trans hshape.symm) helements) hfault

end Transform

/-- The error of a nested type's plan, as the one of the plan below a field of the name. -/
def TransformError.below (name : String) (e : TransformError) : TransformError :=
  { e with field := name ++ "." ++ e.field }

section
variable {n : Nat} {c : Capabilities} {action : Action} {step : Step n} {content : Content}
  {held record inner : Record}

variable {plans plans' : List FieldPlan}

end

end RecordPrivacy
