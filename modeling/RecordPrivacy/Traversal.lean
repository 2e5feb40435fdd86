import RecordPrivacy.Transform

/-!
Carrying out plans on a record. Each plan is resolved on the record as it stands; a plan whose path
leads nowhere, because a record on the way is absent, is skipped. The first failure ends the
traversal, and what was transformed before it stays transformed.
-/
namespace RecordPrivacy

/-- The record as a traversal leaves it, with the number of leaves transformed or the failure. -/
abbrev Traversed := Record × Except TransformError Nat

/-- The error of a plan, at one of its elements. -/
def FieldPlan.fail (plan : FieldPlan) (action : Action) (element : Element) (failure : Failure) :
    TransformError :=
  ⟨failure.kind, action, plan.name ++ element.suffix, failure.cause⟩

def FieldPlan.run (plan : FieldPlan) (capabilities : Capabilities) (action : Action)
    (record : Record) : Drawn Traversed :=
  match record.resolve? plan.path with
  | none => return (record, .ok 0)
  | some leaf =>
    match Transform.bind capabilities action plan.parameter with
    | .error e =>
      return (record, .error (plan.fail action .whole ⟨.ofAction action, .capability e⟩))
    | .ok transform => do
      let (changed, fault) ← transform.leaf leaf
      let record := record.replace plan.path changed
      match fault with
      | some (element, failure) => return (record, .error (plan.fail action element failure))
      | none => return (record, .ok 1)

/-- The plans in order, up to the first failure. -/
def traverse (capabilities : Capabilities) (action : Action) :
    List FieldPlan → Record → Drawn Traversed
  | [], record => return (record, .ok 0)
  | plan :: rest, record => do
    match ← plan.run capabilities action record with
    | (record, .error e) => return (record, .error e)
    | (record, .ok count) =>
      let (record, result) ← traverse capabilities action rest record
      return (record, result.map (count + ·))

end RecordPrivacy
