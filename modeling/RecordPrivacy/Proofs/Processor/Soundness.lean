import RecordPrivacy.Proofs.Capability.Registry
import RecordPrivacy.Proofs.Declaration.Overrides
import RecordPrivacy.Proofs.Plan.Cache
import RecordPrivacy.Proofs.Plan.Origin
import RecordPrivacy.Proofs.Processor.Runs
import RecordPrivacy.Proofs.Traversal.FirstFailure
import RecordPrivacy.Sample.Vault

/-! Validation is sound.

Validation looks at the registry once, traversal at each crossing, while capabilities come in. Since
none is taken away, the plans that validation has found provided for are provided for ever after
(`Covered.effect`), and are bound to transforms of their actions (`Covered.bind`). So a processor
that was validated never fails for want of a capability, unless an override declines its action
(`validated_run`). -/
namespace RecordPrivacy

/-! ### Plans that are provided for -/

namespace Processor

/-- A processor as it was created. -/
structure New (p : Processor) : Prop where
  compiled : PlanSet.compile p.type.family p.type.root = .ok p.plans
  unasked : p.validation = none

/-- Plans that are kept are those that compilation yields. -/
theorem new_of_create {type : RecordType} {cache : PlanCache} {p : Processor}
    (kept : ∀ shared, cache.find? type.root.val = some shared →
      PlanSet.compile type.family type.root = .ok shared.plans)
    (h : (create type cache).1 = .ok p) : p.New := by
  have hasked := PlanCache.asked_plansFor type.family cache type.root
  unfold create at h
  generalize cache.plansFor type.family type.root = result at hasked h
  cases hasked with
  | kept hfind =>
    cases h
    exact ⟨kept _ hfind, rfl⟩
  | refused _ _ => cases h
  | compiled _ hcompile =>
    cases h
    exact ⟨hcompile, rfl⟩

/-- The registry provides for every plan whose action is checked. -/
def Covered (p : Processor) : Prop :=
  ∀ action ∈ Capabilities.checkedActions p.type.overrides, ∀ plan ∈ p.plans.forAction action,
    p.capabilities.provides plan.parameter = true

end Processor

theorem Operation.provides_registered (op : Operation) {c : Capabilities} {parameter : Parameter}
    (h : c.provides parameter = true) : (op.registered c).provides parameter = true := by
  cases op with
  | setEncryptor algorithm encryptor => exact Capabilities.provides_insertEncryptor _ _ h
  | setHasher algorithm hasher => exact Capabilities.provides_insertHasher _ _ h
  | setMasker format masker => exact Capabilities.provides_insertMasker _ _ h
  | setKey algorithm key =>
    rw [registered]
    cases Encryptor.ofKey algorithm key with
    | error e => exact h
    | ok encryptor => exact Capabilities.provides_insertEncryptor _ _ h
  | _ => exact h

namespace Processor
variable {p : Processor}

theorem Covered.effect (h : p.Covered) (op : Operation) : (op.effect p).Covered :=
  fun action ha plan hp => op.provides_registered (h action ha plan hp)

/-- A good outcome means that the plans are provided for. -/
def Sound (p : Processor) : Prop :=
  p.outcome = .ok () → p.Covered

theorem New.sound (new : p.New) : p.Sound := by
  intro h
  rw [outcome, new.unasked, Option.getD_none] at h
  exact Capabilities.validate_ok_iff.mp h

theorem Sound.effect (h : p.Sound) (op : Operation) : (op.effect p).Sound := by
  intro hok
  by_cases hasks : op.asks p = true
  · -- The outcome is settled by the operation, and was the same before it.
    have hsettled : (op.effect p).outcome = p.outcome := by
      rw [outcome, Operation.effect, if_pos hasks, Option.getD_some]
    exact (h (hsettled ▸ hok)).effect op
  · have hkept : (op.effect p).validation = p.validation := by
      rw [Operation.effect, if_neg hasks]
    cases hvalidation : p.validation with
    | none =>
      rw [outcome, hkept, hvalidation, Option.getD_none] at hok
      exact Capabilities.validate_ok_iff.mp hok
    | some o =>
      rw [outcome, hkept, hvalidation, Option.getD_some] at hok
      refine (h ?_).effect op
      rw [outcome, hvalidation, Option.getD_some, hok]

/-- The plans of an action that is not overridden are bound to transforms of the action. -/
theorem Covered.bind (h : p.Covered)
    (compiled : PlanSet.compile p.type.family p.type.root = .ok p.plans) {action : Action}
    (ha : action ∉ p.type.overrides) {plan : FieldPlan} (hp : plan ∈ p.plans.forAction action) :
    ∃ t, Transform.bind p.capabilities action plan.parameter = .ok t ∧ t.action = action := by
  obtain ⟨_, _, _, _, _, text, -, hdenotes, -⟩ := exists_directive_of_mem compiled hp
  have hprovides : p.capabilities.provides plan.parameter = true := by
    by_cases hredact : action = .redact
    · subst hredact
      rw [hdenotes.eq_literal]
      rfl
    · exact h action (Capabilities.mem_checkedActions.mpr ⟨hredact, ha⟩) plan hp
  obtain ⟨t, hbind⟩ := Transform.bind_ok_iff.mpr hprovides
  exact ⟨t, hbind, Transform.action_of_bind hdenotes hbind⟩

end Processor

/-! ### Why an action fails -/

/-- What an action fails of, where its capabilities are registered: of its override, of the plans
that the override has left it to, or of an element that a capability refuses. -/
inductive FailsBy (w : Work) (action : Action) (record : Record) (e : TransformError) : Prop
  | override {mid : Record} {x : CapabilityError} {supply : Entropy} :
      action ∈ w.processor.type.overrides →
      w.processor.type.runOverride action w.processor.capabilities record w.entropy =
        ((mid, some (.error x)), supply) →
      e = ⟨.ofAction action, action, w.processor.typeName, .capability x⟩ →
      FailsBy w action record e
  | declined {mid result : Record} {supply supply' : Entropy} :
      action ∈ w.processor.type.overrides →
      w.processor.type.runOverride action w.processor.capabilities record w.entropy =
        ((mid, none), supply) →
      traverse w.processor.capabilities action (w.processor.plans.forAction action) mid supply =
        ((result, .error e), supply') → FailsBy w action record e
  | refused {k n j : Nat} {plan : FieldPlan} {mid : Record} {leaf leaf' : Leaf} {t : Transform}
      {supply supply' : Entropy} :
      action ∉ w.processor.type.overrides →
      (w.processor.plans.forAction action)[k]? = some plan →
      traverse w.processor.capabilities action ((w.processor.plans.forAction action).take k) record
        w.entropy = ((mid, .ok n), supply) →
      mid.resolve? plan.path = some leaf →
      Transform.bind w.processor.capabilities action plan.parameter = .ok t →
      BrokenOff w.processor.capabilities action plan leaf supply j leaf' e supply' →
      FailsBy w action record e

/-- The plans of an action are carried out on the record, or on what an override that declined has
left of it. -/
inductive Traverses (w : Work) (action : Action) (record : Record) : Record → Entropy → Prop
  | unlisted : action ∉ w.processor.type.overrides → Traverses w action record record w.entropy
  | declined {mid : Record} {supply : Entropy} : action ∈ w.processor.type.overrides →
      w.processor.type.runOverride action w.processor.capabilities record w.entropy =
        ((mid, none), supply) →
      Traverses w action record mid supply

/-- An action fails with its override or with its plans. -/
theorem perform_error {w w' : Work} {action : Action} {record result : Record} {e : TransformError}
    (h : Session.perform action record w = ((result, .error e), w')) :
    (action ∈ w.processor.type.overrides ∧ ∃ x supply,
        w.processor.type.runOverride action w.processor.capabilities record w.entropy =
          ((result, some (.error x)), supply) ∧
        e = ⟨.ofAction action, action, w.processor.typeName, .capability x⟩) ∨
      ∃ start supply supply', Traverses w action record start supply ∧
        traverse w.processor.capabilities action (w.processor.plans.forAction action) start supply =
          ((result, .error e), supply') := by
  by_cases ha : action ∈ w.processor.type.overrides
  · rw [Session.perform_override w record ha] at h
    rcases hrun : w.processor.type.runOverride action w.processor.capabilities record w.entropy with
      ⟨⟨mid, ran⟩, supply⟩
    rw [hrun] at h
    cases ran with
    | some outcome =>
      cases outcome with
      | ok u => cases h
      | error x =>
        cases h
        exact .inl ⟨ha, x, supply, rfl, rfl⟩
    | none =>
      simp only [Session.draw_apply] at h
      rcases ht : traverse w.processor.capabilities action (w.processor.plans.forAction action) mid
        supply with ⟨⟨last, outcome⟩, supply'⟩
      rw [ht] at h
      cases h
      exact .inr ⟨mid, supply, supply', .declined ha hrun, ht⟩
  · rw [Session.perform_plans w record ha, Session.draw_apply] at h
    rcases ht : traverse w.processor.capabilities action (w.processor.plans.forAction action) record
      w.entropy with ⟨⟨last, outcome⟩, supply'⟩
    rw [ht] at h
    cases h
    exact .inr ⟨record, w.entropy, supply', .unlisted ha, ht⟩

theorem perform_failsBy {w w' : Work} {action : Action} {record result : Record} {e : TransformError}
    (compiled : PlanSet.compile w.processor.type.family w.processor.type.root =
      .ok w.processor.plans) (covered : w.processor.Covered)
    (h : Session.perform action record w = ((result, .error e), w')) :
    FailsBy w action record e := by
  rcases perform_error h with ⟨ha, x, supply, hrun, he⟩ | ⟨start, supply, supply', hstart, ht⟩
  · exact .override ha hrun he
  · cases hstart with
    | declined ha hrun => exact .declined ha hrun ht
    | unlisted ha =>
      obtain ⟨k, plan, mid, n, supply, hk, hbefore, hplan⟩ := traverse_error ht
      obtain ⟨leaf, j, leaf', hleaf, hoff, -⟩ := FieldPlan.run_brokenOff hplan
      obtain ⟨t, hbind, -⟩ := covered.bind compiled ha (List.mem_of_getElem? hk)
      exact .refused ha hk hbefore hleaf hbind hoff

/-- The type overrides what its declaration lists, by way of the arms that are derived for it. -/
structure RecordType.DerivedFrom (type : RecordType) (outline : Declaration.Outline)
    (own : Declaration.OwnActions) : Prop where
  overrides : type.overrides = outline.overrides
  runOverride : type.runOverride = outline.runOverride own

/-- An arm runs an implementation, and an implementation succeeds or fails. -/
theorem RecordType.DerivedFrom.not_declined {type : RecordType} {outline : Declaration.Outline}
    {own : Declaration.OwnActions} (derived : type.DerivedFrom outline own) {action : Action}
    (ha : action ∈ type.overrides) (c : Capabilities) (record : Record) (supply : Entropy) :
    (type.runOverride action c record supply).1.2 ≠ none := by
  have hlisted : action ∈ outline.overrides := derived.overrides ▸ ha
  rw [derived.runOverride, outline.runOverride_eq, if_pos hlisted, State.bind_apply]
  exact Option.some_ne_none _

/-! ### Runs -/

theorem Processor.New.compiled_after {w : Work} (new : w.processor.New) (ops : List Operation) :
    PlanSet.compile (w.after ops).processor.type.family (w.after ops).processor.type.root =
      .ok (w.after ops).processor.plans := by
  obtain ⟨htype, hplans⟩ := w.after_fixed ops
  rw [hplans, htype]
  exact new.compiled

/-- Whenever the outcome of validation is good, the plans are provided for. -/
theorem Processor.New.covered_after {w : Work} (new : w.processor.New) (ops : List Operation)
    (valid : (w.after ops).processor.outcome = .ok ()) : (w.after ops).processor.Covered :=
  Work.after_invariant (fun op _ h => h.effect op) ops new.sound valid

/-- **A processor that was validated has what it needs from then on.** After whatever operations,
the plans of every action that is not overridden are bound to transforms of the action; and a
crossing that fails in a transform does so because an override failed, because an override declined
and left its action to the plans, or because a capability that is registered refused an element. An
override of a derived type does not decline. -/
theorem Work.validated_run {w : Work} (new : w.processor.New) (before later : List Operation)
    (valid : (w.after before).processor.outcome = .ok ()) :
    (∀ action, action ∉ w.processor.type.overrides →
        ∀ plan ∈ w.processor.plans.forAction action, ∃ t,
          Transform.bind (w.after (before ++ later)).processor.capabilities action plan.parameter =
            .ok t ∧ t.action = action) ∧
      (∀ (op : Operation) boundary e,
        Event.failed boundary (.transform e) ∈ op.reports (w.after (before ++ later)) →
        ∃ record action mid w₁,
          op.crossing? (w.after (before ++ later)).processor = some (boundary, record) ∧
          Session.Reaches (Session.entered boundary (w.after (before ++ later))) boundary.actions
            record action mid w₁ ∧
          FailsBy w₁ action mid e) ∧
      ∀ outline own, w.processor.type.DerivedFrom outline own →
        ∀ action ∈ w.processor.type.overrides, ∀ c record supply,
          (w.processor.type.runOverride action c record supply).1.2 ≠ none := by
  obtain ⟨htype, hplans⟩ := w.after_fixed (before ++ later)
  have hcompiled := new.compiled_after (before ++ later)
  have hcovered : (w.after (before ++ later)).processor.Covered := by
    rw [after_append]
    exact after_invariant (fun op _ h => h.effect op) later (new.covered_after before valid)
  refine ⟨fun action ha plan hp => ?_, fun op boundary e hmem => ?_,
    fun outline own derived action ha => derived.not_declined ha⟩
  · exact hcovered.bind hcompiled (htype ▸ ha) (hplans ▸ hp)
  · obtain ⟨record, hcrossing, hfailed⟩ := Operation.cross_of_failed hmem
    obtain ⟨-, _, _, hall⟩ := Session.of_cross_error _ hfailed
    obtain ⟨action, mid, w₁, hreaches, hperform⟩ := Session.performAll_error hall
    have hprocessor : w₁.processor = (w.after (before ++ later)).processor.settled := by
      rw [hreaches.processor, Session.entered_processor]
    refine ⟨record, action, mid, w₁, hcrossing, hreaches, perform_failsBy ?_ ?_ hperform⟩
    · rw [hprocessor]
      exact hcompiled
    · rw [hprocessor]
      exact hcovered

open Sample in
/-- Once it has been given its key, a vault fails to load only what was never encrypted. -/
theorem Work.keylessVault_equipped :
    (∃ t, Transform.bind (keylessVault.after
        ([.setEncryptor .aes (.xor 1), .validate] ++ [.setMasker .name .stars])).processor.capabilities
          .decrypt (.encryptor .aes) = .ok t ∧ t.action = .decrypt) ∧
      ∃ action mid w₁, FailsBy w₁ action mid
        ⟨.encodingInvalid, .decrypt, "name", .base64 (.symbol 63 0)⟩ := by
  have new : keylessVault.processor.New := ⟨by cbv, rfl⟩
  obtain ⟨hbound, hfailed, -⟩ := validated_run new [.setEncryptor .aes (.xor 1), .validate]
    [.setMasker .name .stars] rfl
  have hmem : .failed .load (.transform ⟨.encodingInvalid, .decrypt, "name",
      .base64 (.symbol 63 0)⟩) ∈ (Operation.cross .load (form "?" "" "" "")).reports
        (keylessVault.after ([.setEncryptor .aes (.xor 1), .validate] ++
          [.setMasker .name .stars])) :=
    List.mem_of_getElem? (i := 1) rfl
  obtain ⟨_, action, mid, w₁, -, -, hfails⟩ := hfailed _ _ _ hmem
  exact ⟨hbound .decrypt (by decide) ⟨[0], [], "name", .encryptor .aes, .text⟩ (by decide),
    action, mid, w₁, hfails⟩

end RecordPrivacy
