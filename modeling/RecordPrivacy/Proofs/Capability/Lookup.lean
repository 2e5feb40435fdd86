import RecordPrivacy.Proofs.Capability.Registry
import RecordPrivacy.Traversal

/-! What is registered for the parameter of a plan.

The three registries are read through the parameters of plans (`Capabilities.at?`): this is what a
plan is bound to (`Transform.bind_at?`). Validation and traversal look at nothing else of a registry
(`validate_congr`, `traverse_congr`). -/
namespace RecordPrivacy

/-- A capability of any kind. -/
inductive Capability where
  | encryptor (encryptor : Encryptor)
  | hasher (hasher : Hasher)
  | masker (masker : Masker)

namespace Capability

/-- What carries out an action with the capability. -/
def transform (action : Action) : Capability → Transform
  | encryptor e => if action = .decrypt then .decrypt e else .encrypt e
  | hasher h => .hash h
  | masker m => .mask m

/-- The capability that comes with every processor. -/
def builtin? : Parameter → Option Capability
  | .encryptor _ => none
  | .hasher algorithm => some (hasher (Hasher.builtin algorithm))
  | .masker format => some (masker (Masker.builtin format))
  | .literal _ => none

end Capability

namespace Capabilities
variable {c c' : Capabilities}

/-- What is registered for the parameter. -/
def at? (c : Capabilities) : Parameter → Option Capability
  | .encryptor algorithm => (c.encryptor? algorithm).map .encryptor
  | .hasher algorithm => (c.hasher? algorithm).map .hasher
  | .masker format => (c.masker? format).map .masker
  | .literal _ => none

theorem at?_builtin (parameter : Parameter) :
    builtin.at? parameter = Capability.builtin? parameter := by
  cases parameter <;> rfl

theorem at?_insertEncryptor (algorithm : EncryptionAlgorithm) (encryptor : Encryptor)
    (parameter : Parameter) : (c.insertEncryptor algorithm encryptor).at? parameter =
      if parameter = .encryptor algorithm then some (.encryptor encryptor)
      else c.at? parameter := by
  cases parameter with
  | encryptor a => by_cases ha : a = algorithm <;> simp [at?, insertEncryptor, ha]
  | _ => rfl

theorem at?_insertHasher (algorithm : HashAlgorithm) (hasher : Hasher) (parameter : Parameter) :
    (c.insertHasher algorithm hasher).at? parameter =
      if parameter = .hasher algorithm then some (.hasher hasher) else c.at? parameter := by
  cases parameter with
  | hasher a => by_cases ha : a = algorithm <;> simp [at?, insertHasher, ha]
  | _ => rfl

theorem at?_insertMasker (format : MaskFormat) (masker : Masker) (parameter : Parameter) :
    (c.insertMasker format masker).at? parameter =
      if parameter = .masker format then some (.masker masker) else c.at? parameter := by
  cases parameter with
  | masker f => by_cases hf : f = format <;> simp [at?, insertMasker, hf]
  | _ => rfl

theorem provides_congr {parameter : Parameter} (h : c'.at? parameter = c.at? parameter) :
    c'.provides parameter = c.provides parameter := by
  have hsome := congrArg Option.isSome h
  cases parameter with
  | literal text => rfl
  | _ => simpa [at?, provides] using hsome

/-- Validation reads the registry at the parameters of the plans only. -/
theorem validate_congr {plans : PlanSet} (overrides : List Action)
    (h : ∀ action, ∀ plan ∈ plans.forAction action,
      c'.at? plan.parameter = c.at? plan.parameter) :
    c'.validate plans overrides = c.validate plans overrides := by
  have hgaps : ∀ plan ∈ (checkedActions overrides).flatMap plans.forAction,
      c'.gap? plan = c.gap? plan := by
    intro plan hmem
    obtain ⟨action, -, hplan⟩ := List.mem_flatMap.mp hmem
    rw [gap?, gap?, provides_congr (h action plan hplan)]
  have hfirst : ∀ plans : List FieldPlan, (∀ plan ∈ plans, c'.gap? plan = c.gap? plan) →
      plans.findSome? c'.gap? = plans.findSome? c.gap? := by
    intro plans hplans
    induction plans with
    | nil => rfl
    | cons plan rest ih =>
      rw [List.forall_mem_cons] at hplans
      rw [List.findSome?_cons, List.findSome?_cons, hplans.1, ih hplans.2]
  rw [validate, validate, hfirst _ hgaps]

end Capabilities

/-- A plan is bound to what is registered for its parameter. -/
theorem Transform.bind_at? (c : Capabilities) (action : Action) {parameter : Parameter}
    {kind : CapabilityKind} (h : parameter.kind? = some kind) :
    bind c action parameter =
      match c.at? parameter with
      | some capability => .ok (capability.transform action)
      | none => .error (.notRegistered kind parameter.text) := by
  cases parameter with
  | encryptor algorithm =>
    cases h
    rw [bind, Capabilities.at?]
    cases c.encryptor? algorithm <;> rfl
  | hasher algorithm =>
    cases h
    rw [bind, Capabilities.at?]
    cases c.hasher? algorithm <;> rfl
  | masker format =>
    cases h
    rw [bind, Capabilities.at?]
    cases c.masker? format <;> rfl
  | literal text => cases h

theorem Transform.bind_congr {c c' : Capabilities} (action : Action) {parameter : Parameter}
    (h : c'.at? parameter = c.at? parameter) : bind c' action parameter = bind c action parameter := by
  cases hkind : parameter.kind? with
  | some kind => rw [bind_at? c' action hkind, bind_at? c action hkind, h]
  | none =>
    cases parameter with
    | literal text => rfl
    | _ => cases hkind

/-- So does traversal. -/
theorem traverse_congr {c c' : Capabilities} (action : Action) {plans : List FieldPlan}
    (h : ∀ plan ∈ plans, c'.at? plan.parameter = c.at? plan.parameter) :
    traverse c' action plans = traverse c action plans := by
  induction plans with
  | nil => rfl
  | cons plan rest ih =>
    rw [List.forall_mem_cons] at h
    funext record
    have hrun : plan.run c' action record = plan.run c action record := by
      rw [FieldPlan.run, FieldPlan.run, Transform.bind_congr action h.1]
    rw [traverse, traverse, hrun, ih h.2]

end RecordPrivacy
