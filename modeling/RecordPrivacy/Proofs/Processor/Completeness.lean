import RecordPrivacy.Proofs.Capability.Gaps
import RecordPrivacy.Proofs.Processor.Registration

/-! Validation is complete.

Hashers and maskers are built in, and what is registered is never taken away, so that no processor
lacks any of them, whatever was asked of it (`Stocked.effect`). What it lacks are keys: an encryptor
for a directive that encrypts or decrypts. `validation_complete` says when validation reports one,
and which. -/
namespace RecordPrivacy

/-! ### Registries that lack keys at most -/

/-- Whatever is not an encryptor is provided for. -/
def Capabilities.Stocked (c : Capabilities) : Prop :=
  ∀ parameter, (∀ algorithm, parameter ≠ .encryptor algorithm) → c.provides parameter = true

namespace Capabilities.Stocked
variable {c : Capabilities}

theorem builtin : Stocked .builtin := by
  intro parameter hkeyless
  cases parameter with
  | encryptor algorithm => exact absurd rfl (hkeyless algorithm)
  | _ => rfl

theorem registered (h : c.Stocked) (op : Operation) : (op.registered c).Stocked :=
  fun parameter hkeyless => op.provides_registered (h parameter hkeyless)

/-- What is missing is an encryptor. -/
theorem missing (h : c.Stocked) {parameter : Parameter} (hmissing : c.provides parameter = false) :
    ∃ algorithm, parameter = .encryptor algorithm ∧ c.encryptor? algorithm = none := by
  cases parameter with
  | encryptor algorithm => exact ⟨algorithm, rfl, by simpa [provides] using hmissing⟩
  | _ => exact absurd (h _ (by simp)) (ne_true_of_eq_false hmissing)

end Capabilities.Stocked

/-- Only encryption and decryption are planned with encryption algorithms. -/
theorem Compiled.keyed_action {n : Nat} {site : Site n} {action : Action} {plan : FieldPlan}
    {algorithm : EncryptionAlgorithm} (h : Compiled site (action, plan))
    (hparameter : plan.parameter = .encryptor algorithm) :
    action = .encrypt ∨ action = .decrypt := by
  obtain ⟨text, hdenotes⟩ := h.denotes
  rw [hparameter] at hdenotes
  cases hdenotes with
  | encryptor _ haction => exact haction

namespace Capabilities.FirstLacks
variable {n : Nat} {family : Family n} {root : Fin n} {c : Capabilities} {overrides : List Action}
  {site : Site n} {action : Action} {plan : FieldPlan}

/-- The first gap is a key, and one to decrypt with if any such key is missing. -/
theorem decrypts (h : c.FirstLacks overrides family root site action plan) (stocked : c.Stocked)
    {other : Site n} {plan' : FieldPlan}
    (hother : c.Lacks overrides family root other .decrypt plan') : action = .decrypt := by
  obtain ⟨algorithm, hparameter, -⟩ := stocked.missing h.missing
  have haction := h.compiled.keyed_action hparameter
  have hsite : site.action? = some action := h.compiled.action?_eq
  have hdecrypt : other.action? = some .decrypt := hother.compiled.action?_eq
  rcases h.first other _ _ hother with rfl | hbefore
  · exact Option.some.inj (hsite.symm.trans hdecrypt)
  · obtain ⟨first, second, hfirst, hsecond, horder⟩ := hbefore
    cases hsite.symm.trans hfirst
    cases hdecrypt.symm.trans hsecond
    rcases horder with hturn | ⟨rfl, -⟩
    · rcases haction with rfl | rfl <;> exact absurd hturn (by decide)
    · rfl

end Capabilities.FirstLacks

/-! ### Processors -/

namespace Processor
variable {p : Processor}

/-- What validation finds when it looks at the registry now. -/
def check (p : Processor) : Except ValidationError Unit :=
  p.capabilities.validate p.plans p.type.overrides

/-- What validation owes to a processor: of any registry and any overrides it finds the first gap, and
the gaps of the processor itself are keys. -/
structure Checked (p : Processor) : Prop where
  /-- There is none just if the registry provides for every plan whose action is not overridden. -/
  content : ∀ (c : Capabilities) overrides, c.validate p.plans overrides = .ok () ↔
    ∀ action, action ∉ overrides → ∀ plan ∈ p.plans.forAction action,
      c.provides plan.parameter = true
  /-- The gap that is reported is the first. -/
  first : ∀ (c : Capabilities) overrides e, c.validate p.plans overrides = .error e →
    ∃ site action plan kind, c.FirstLacks overrides p.type.family p.type.root site action plan ∧
      plan ∈ p.plans.forAction action ∧ plan.parameter.kind? = some kind ∧
      e = ⟨kind, plan.parameter.text, plan.name⟩
  /-- What is missing is an encryptor. -/
  key : ∀ e, p.check = .error e → e.kind = .encryptor
  /-- If there is none to decrypt a field with, such a field is reported. -/
  decrypts : .decrypt ∉ p.type.overrides → ∀ plan ∈ p.plans.forAction .decrypt,
    p.capabilities.provides plan.parameter = false →
    ∃ site first algorithm, p.capabilities.FirstLacks p.type.overrides p.type.family p.type.root
        site .decrypt first ∧ first ∈ p.plans.forAction .decrypt ∧
      first.parameter = .encryptor algorithm ∧
      p.check = .error ⟨.encryptor, algorithm.text, first.name⟩
  /-- There is a gap just if something is encrypted or decrypted with an algorithm without key. -/
  gap : (∃ e, p.check = .error e) ↔
    ∃ action, (action = .encrypt ∨ action = .decrypt) ∧ action ∉ p.type.overrides ∧
      ∃ plan ∈ p.plans.forAction action, ∃ algorithm, plan.parameter = .encryptor algorithm ∧
        p.capabilities.encryptor? algorithm = none

theorem check_error_iff (compiled : PlanSet.compile p.type.family p.type.root = .ok p.plans) :
    (∃ e, p.check = .error e) ↔ ∃ action, action ∉ p.type.overrides ∧
      ∃ plan ∈ p.plans.forAction action, p.capabilities.provides plan.parameter = false := by
  have hcontent : p.check = .ok () ↔ _ := Capabilities.validate_ok_iff_provides compiled
  constructor
  · intro h
    obtain ⟨e, he⟩ := h
    obtain ⟨_, action, plan, _, hlacks, hmem, -⟩ := Capabilities.reports_first compiled he
    exact ⟨action, hlacks.asked, plan, hmem, hlacks.missing⟩
  · intro h
    obtain ⟨action, hasked, plan, hmem, hmissing⟩ := h
    cases hcheck : p.check with
    | error e => exact ⟨e, rfl⟩
    | ok u =>
      have hprovided := hcontent.mp hcheck action hasked plan hmem
      exact absurd hprovided (ne_true_of_eq_false hmissing)

theorem checked (compiled : PlanSet.compile p.type.family p.type.root = .ok p.plans)
    (stocked : p.capabilities.Stocked) : p.Checked := by
  refine ⟨fun c overrides => Capabilities.validate_ok_iff_provides compiled,
    fun c overrides e => Capabilities.reports_first compiled, ?key, ?decrypts, ?gap⟩
  case key =>
    intro e he
    obtain ⟨_, _, plan, kind, hlacks, -, hkind, rfl⟩ := Capabilities.reports_first compiled he
    obtain ⟨algorithm, hparameter, -⟩ := stocked.missing hlacks.missing
    rw [hparameter] at hkind
    exact (Option.some.inj hkind).symm
  case decrypts =>
    intro hasked plan hplan hmissing
    obtain ⟨other, hsite, hcompiled⟩ :=
      (compile_planned compiled).exists_site (PlanSet.mem_forAction.mp hplan)
    obtain ⟨e, he⟩ := (check_error_iff compiled).mpr ⟨.decrypt, hasked, plan, hplan, hmissing⟩
    obtain ⟨site, action, first, kind, hlacks, hmem, hkind, rfl⟩ :=
      Capabilities.reports_first compiled he
    obtain rfl := hlacks.decrypts stocked ⟨hsite, hcompiled, hasked, hmissing⟩
    obtain ⟨algorithm, hparameter, -⟩ := stocked.missing hlacks.missing
    rw [hparameter] at hkind he
    cases hkind
    exact ⟨site, first, algorithm, hlacks, hmem, hparameter, he⟩
  case gap =>
    rw [check_error_iff compiled]
    constructor
    · intro h
      obtain ⟨action, hasked, plan, hmem, hmissing⟩ := h
      obtain ⟨_, -, hcompiled⟩ :=
        (compile_planned compiled).exists_site (PlanSet.mem_forAction.mp hmem)
      obtain ⟨algorithm, hparameter, hnone⟩ := stocked.missing hmissing
      exact ⟨action, hcompiled.keyed_action hparameter, hasked, plan, hmem, algorithm, hparameter,
        hnone⟩
    · intro h
      obtain ⟨action, -, hasked, plan, hmem, algorithm, hparameter, hnone⟩ := h
      refine ⟨action, hasked, plan, hmem, ?_⟩
      rw [hparameter, Capabilities.provides, hnone]
      rfl

end Processor

/-- **Validation is complete and reports the first gap.** It is content just if the registry provides
for every plan whose action is not overridden; else it names the first that it does not provide for,
first hashes, then what is decrypted, what is encrypted, and masks, each in declaration order.
Whatever was asked of a processor, only keys can be missing, and keys to decrypt with come first. -/
theorem Work.validation_complete {w : Work} {type : RecordType} {cache : PlanCache}
    (serves : cache.Serves type.family) (created : (Processor.create type cache).1 = .ok w.processor)
    (ops : List Operation) : (w.after ops).processor.Checked := by
  have new := Processor.new_of_create (fun _ hkept => serves.compile_of_find? hkept) created
  have hstocked : w.processor.capabilities.Stocked :=
    Processor.capabilities_of_create created ▸ .builtin
  refine Processor.checked ?_ (after_invariant (P := fun p => p.capabilities.Stocked)
    (fun op _ h => h.registered op) ops hstocked)
  obtain ⟨htype, hplans⟩ := w.after_fixed ops
  rw [htype, hplans]
  exact new.compiled

open Sample in
/-- A vault that is given one key, but not the one that it needs. -/
theorem Work.keylessVault_checked :
    PlanCache.empty.Serves formType.family ∧
      (Processor.create formType .empty).1 = .ok keylessVault.processor ∧
      (keylessVault.after [.setEncryptor .rsa (.xor 1)]).processor.Checked ∧
      (keylessVault.after [.setEncryptor .rsa (.xor 1)]).processor.check =
        .error ⟨.encryptor, "aes", "name"⟩ := by
  have serves := PlanCache.serves_reset .empty formType.family
  have compiled : PlanSet.compile formType.family formType.root = .ok formPlanSet := by cbv
  have created : (Processor.create formType .empty).1 = .ok keylessVault.processor := by
    rw [Processor.create, PlanCache.plansFor,
      show PlanCache.empty.find? formType.root.val = none from rfl, compiled]
    rfl
  exact ⟨serves, created, validation_complete serves created _, rfl⟩

end RecordPrivacy
