import RecordPrivacy.Proofs.Plan.Sites
import RecordPrivacy.Transform

/-! Registries and plans.

Validation asks whether a registry provides for the plans, traversal binds them to capabilities: a
plan is bound just if the registry provides for it (`bind_ok_iff`). Registering never takes away
what a registry provides (`provides_insertEncryptor` and its like). -/
namespace RecordPrivacy

namespace Capabilities
variable {c : Capabilities} {parameter : Parameter}

theorem gap?_eq_none {plan : FieldPlan} :
    c.gap? plan = none ↔ c.provides plan.parameter = true := by
  unfold gap?
  cases h : plan.parameter with
  | literal text => simp [Parameter.kind?, provides]
  | _ => simp [Parameter.kind?]

/-- Validation is content if the plans of all checked actions are provided for. -/
theorem validate_ok_iff {plans : PlanSet} {overrides : List Action} :
    c.validate plans overrides = .ok () ↔
      ∀ action ∈ checkedActions overrides, ∀ plan ∈ plans.forAction action,
        c.provides plan.parameter = true := by
  have hgaps : ((checkedActions overrides).flatMap plans.forAction).findSome? c.gap? = none ↔
      ∀ action ∈ checkedActions overrides, ∀ plan ∈ plans.forAction action,
        c.provides plan.parameter = true := by
    simp only [List.findSome?_eq_none_iff, List.mem_flatMap, gap?_eq_none]
    constructor
    · intro h action ha plan hp
      exact h plan ⟨action, ha, hp⟩
    · intro h plan hmem
      obtain ⟨action, ha, hp⟩ := hmem
      exact h action ha plan hp
  rw [← hgaps, validate]
  cases ((checkedActions overrides).flatMap plans.forAction).findSome? c.gap? <;> simp

theorem mem_checkedActions {overrides : List Action} {action : Action} :
    action ∈ checkedActions overrides ↔ action ≠ .redact ∧ action ∉ overrides := by
  unfold checkedActions
  cases action <;> simp

theorem provides_insertEncryptor (algorithm : EncryptionAlgorithm) (encryptor : Encryptor)
    (h : c.provides parameter = true) :
    (c.insertEncryptor algorithm encryptor).provides parameter = true := by
  cases parameter with
  | encryptor a =>
    by_cases ha : a = algorithm
    · simp [provides, insertEncryptor, ha]
    · simpa [provides, insertEncryptor, ha] using h
  | _ => exact h

theorem provides_insertHasher (algorithm : HashAlgorithm) (hasher : Hasher)
    (h : c.provides parameter = true) :
    (c.insertHasher algorithm hasher).provides parameter = true := by
  cases parameter with
  | hasher a =>
    by_cases ha : a = algorithm
    · simp [provides, insertHasher, ha]
    · simpa [provides, insertHasher, ha] using h
  | _ => exact h

theorem provides_insertMasker (format : MaskFormat) (masker : Masker)
    (h : c.provides parameter = true) :
    (c.insertMasker format masker).provides parameter = true := by
  cases parameter with
  | masker f =>
    by_cases hf : f = format
    · simp [provides, insertMasker, hf]
    · simpa [provides, insertMasker, hf] using h
  | _ => exact h

end Capabilities

namespace Transform
variable {c : Capabilities} {action : Action} {parameter : Parameter}

theorem bind_ok_iff :
    (∃ t, bind c action parameter = .ok t) ↔ c.provides parameter = true := by
  cases parameter with
  | encryptor algorithm =>
    cases h : c.encryptor? algorithm <;> simp [bind, Capabilities.provides, h]
  | hasher algorithm =>
    cases h : c.hasher? algorithm <;> simp [bind, Capabilities.provides, h]
  | masker format =>
    cases h : c.masker? format <;> simp [bind, Capabilities.provides, h]
  | literal text => simp [bind, Capabilities.provides]

/-- A plan with a parameter of its action is bound to a transform of its action. -/
theorem action_of_bind {text : String} {t : Transform} (h : Denotes ⟨action, text⟩ parameter)
    (hbind : bind c action parameter = .ok t) : t.action = action := by
  cases h with
  | encryptor algorithm haction =>
    simp only [bind] at hbind
    cases he : c.encryptor? algorithm with
    | none => simp [he] at hbind
    | some encryptor =>
      rw [he] at hbind
      rcases haction with rfl | rfl <;> cases hbind <;> rfl
  | hasher algorithm =>
    simp only [bind] at hbind
    cases hh : c.hasher? algorithm with
    | none => simp [hh] at hbind
    | some hasher =>
      rw [hh] at hbind
      cases hbind
      rfl
  | masker format =>
    simp only [bind] at hbind
    cases hm : c.masker? format with
    | none => simp [hm] at hbind
    | some masker =>
      rw [hm] at hbind
      cases hbind
      rfl
  | literal text =>
    cases hbind
    rfl

end Transform

end RecordPrivacy
