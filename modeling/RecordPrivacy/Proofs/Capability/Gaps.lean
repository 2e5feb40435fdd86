import RecordPrivacy.Proofs.Capability.Registry
import RecordPrivacy.Proofs.Plan.Distinct

/-! The first gap.

Validation asks for the capabilities of the plans, action by action and plan by plan, and reports the
first that is missing. Plans come from directives, so that the gap that is reported is that of a
directive, and no directive that is checked before it lacks anything (`reports_first`). -/
namespace RecordPrivacy

/-- Hashes are checked first, then what is decrypted, what is encrypted, and masks. Redactions would
come last, but need nothing. -/
def Action.turn : Action → Nat
  | .hash => 0
  | .decrypt => 1
  | .encrypt => 2
  | .mask => 3
  | .redact => 4

variable {n : Nat} {family : Family n} {root : Fin n}

theorem Compiled.unique {site : Site n} {entry entry' : Action × FieldPlan}
    (h : Compiled site entry) (h' : Compiled site entry') : entry = entry' := by
  cases h with
  | directive hdenotes =>
    cases h' with
    | directive hdenotes' => rw [hdenotes.unique hdenotes']

/-- The directive is checked before the other: its action has its turn earlier, or they have one action
and it is declared earlier. -/
def Site.CheckedBefore (a b : Site n) : Prop :=
  ∃ first second, a.action? = some first ∧ b.action? = some second ∧
    (first.turn < second.turn ∨ first = second ∧ a.Before b)

namespace Capabilities
variable {c : Capabilities} {overrides : List Action} {plans : PlanSet}

theorem gap?_eq_some {plan : FieldPlan} {e : ValidationError} : c.gap? plan = some e ↔
    ∃ kind, plan.parameter.kind? = some kind ∧ c.provides plan.parameter = false ∧
      e = ⟨kind, plan.parameter.text, plan.name⟩ := by
  rw [gap?]
  cases plan.parameter.kind? with
  | none => simp
  | some kind => cases c.provides plan.parameter <;> simp [eq_comm]

/-- A redaction needs nothing, so that a plan that lacks something is one that is checked. -/
theorem checked_of_missing {site : Site n} {action : Action} {plan : FieldPlan}
    (h : Compiled site (action, plan)) (hmissing : c.provides plan.parameter = false)
    (hasked : action ∉ overrides) : action ∈ checkedActions overrides := by
  refine mem_checkedActions.mpr ⟨?_, hasked⟩
  intro haction
  subst haction
  obtain ⟨text, hdenotes⟩ := h.denotes
  rw [hdenotes.eq_literal] at hmissing
  cases hmissing

/-! ### The directives that are checked -/

/-- The directives of the checked actions, in the order in which they are checked. -/
def checkedSites (overrides : List Action) (sites : List (Site n)) : List (Site n) :=
  (checkedActions overrides).flatMap fun action => sites.filter (·.action? = some action)

theorem mem_checkedSites {sites : List (Site n)} {site : Site n} :
    site ∈ checkedSites overrides sites ↔
      site ∈ sites ∧ ∃ action ∈ checkedActions overrides, site.action? = some action := by
  simp only [checkedSites, List.mem_flatMap, List.mem_filter, decide_eq_true_eq]
  constructor
  · intro h
    obtain ⟨action, haction, hsite, heq⟩ := h
    exact ⟨hsite, action, haction, heq⟩
  · intro h
    obtain ⟨hsite, action, haction, heq⟩ := h
    exact ⟨action, haction, hsite, heq⟩

theorem checkedSites_sorted {sites : List (Site n)} (sorted : sites.Pairwise Site.Before) :
    (checkedSites overrides sites).Pairwise Site.CheckedBefore := by
  have hactions : (checkedActions overrides).Pairwise (·.turn < ·.turn) :=
    List.Pairwise.filter _ (by decide)
  have haction_of : ∀ {site : Site n} {action : Action},
      site ∈ sites.filter (·.action? = some action) → site.action? = some action :=
    fun h => of_decide_eq_true (List.mem_filter.mp h).2
  refine List.pairwise_flatMap.mpr ⟨fun action _ => ?_, hactions.imp fun hturn a ha b hb => ?_⟩
  · exact (sorted.filter _).imp_of_mem fun ha hb hbefore =>
      ⟨action, action, haction_of ha, haction_of hb, .inr ⟨rfl, hbefore⟩⟩
  · exact ⟨_, _, haction_of ha, haction_of hb, .inl hturn⟩

theorem checkedSites_compiled {sites : List (Site n)}
    (h : List.Forall₂ Compiled sites plans.entries) (overrides : List Action) :
    List.Forall₂ (fun site plan => ∃ action, Compiled site (action, plan))
      (checkedSites overrides sites) ((checkedActions overrides).flatMap plans.forAction) := by
  refine List.rel_flatMap (List.forall₂_same.mpr fun action _ => rfl : List.Forall₂ Eq _ _) ?_
  intro action _ heq
  subst heq
  exact (forall₂_forAction (fun _ _ h => h.action?_eq) h plans.typeName action).imp
    fun _ _ h => ⟨action, h⟩

/-! ### What is reported -/

/-- A directive of an action that is not overridden, with its plan, which the registry does not provide
for. -/
structure Lacks (c : Capabilities) (overrides : List Action) (family : Family n) (root : Fin n)
    (site : Site n) (action : Action) (plan : FieldPlan) : Prop where
  site_of : site.Of family root
  compiled : Compiled site (action, plan)
  asked : action ∉ overrides
  missing : c.provides plan.parameter = false

/-- Of all directives that lack something this one is checked first. -/
structure FirstLacks (c : Capabilities) (overrides : List Action) (family : Family n) (root : Fin n)
    (site : Site n) (action : Action) (plan : FieldPlan) : Prop extends
    c.Lacks overrides family root site action plan where
  first : ∀ other action' plan', c.Lacks overrides family root other action' plan' →
    other = site ∨ site.CheckedBefore other

/-- Validation is content just if the registry provides for every plan whose action is not
overridden. -/
theorem validate_ok_iff_provides (h : PlanSet.compile family root = .ok plans) :
    c.validate plans overrides = .ok () ↔
      ∀ action, action ∉ overrides → ∀ plan ∈ plans.forAction action,
        c.provides plan.parameter = true := by
  rw [validate_ok_iff]
  constructor
  · intro hprovides action hasked plan hplan
    obtain ⟨site, -, hcompiled⟩ :=
      (compile_planned h).exists_site (PlanSet.mem_forAction.mp hplan)
    by_contra hmissing
    have hchecked := checked_of_missing hcompiled (eq_false_of_ne_true hmissing) hasked
    exact hmissing (hprovides action hchecked plan hplan)
  · intro hprovides action hchecked
    exact hprovides action (mem_checkedActions.mp hchecked).2

/-- **The gap that is reported is the first**, with the parameter that is missing, its kind and the
field. -/
theorem reports_first (h : PlanSet.compile family root = .ok plans) {e : ValidationError}
    (herror : c.validate plans overrides = .error e) :
    ∃ site action plan kind, c.FirstLacks overrides family root site action plan ∧
      plan ∈ plans.forAction action ∧ plan.parameter.kind? = some kind ∧
      e = ⟨kind, plan.parameter.text, plan.name⟩ := by
  obtain ⟨sites, hsorted, hmem, hcompiled⟩ := compile_planned h
  have hgap : ((checkedActions overrides).flatMap plans.forAction).findSome? c.gap? = some e := by
    rw [validate] at herror
    cases hfound : ((checkedActions overrides).flatMap plans.forAction).findSome? c.gap? with
    | none => simp [hfound] at herror
    | some gap =>
      rw [hfound] at herror
      cases herror
      rfl
  have hunique : ∀ (site : Site n) (plan plan' : FieldPlan),
      (∃ action, Compiled site (action, plan)) → (∃ action, Compiled site (action, plan')) →
      plan = plan' := by
    intro site plan plan' hplan hplan'
    obtain ⟨action, hplan⟩ := hplan
    obtain ⟨action', hplan'⟩ := hplan'
    exact congrArg Prod.snd (hplan.unique hplan')
  obtain ⟨site, hsite, plan, -, hplan, hhit, hfirst⟩ := first_of_findSome? hunique
    (checkedSites_compiled hcompiled overrides) (checkedSites_sorted hsorted) hgap
  obtain ⟨action, hplan⟩ := hplan
  obtain ⟨kind, hkind, hmissing, rfl⟩ := gap?_eq_some.mp hhit
  obtain ⟨hsite, asked, hchecked, hasked⟩ := mem_checkedSites.mp hsite
  obtain rfl : asked = action := Option.some.inj (hasked.symm.trans hplan.action?_eq)
  obtain ⟨hsite_of, hsome⟩ := (hmem site).mp hsite
  refine ⟨site, asked, plan, kind, ⟨⟨hsite_of, hplan, (mem_checkedActions.mp hchecked).2, hmissing⟩,
    ?first⟩, ?mem, hkind, rfl⟩
  case first =>
    intro other action' plan' hlacks
    have hother : other ∈ checkedSites overrides sites :=
      mem_checkedSites.mpr ⟨(hmem other).mpr ⟨hlacks.site_of, by rw [hlacks.compiled.action?_eq]; rfl⟩,
        action', checked_of_missing hlacks.compiled hlacks.missing hlacks.asked,
        hlacks.compiled.action?_eq⟩
    refine hfirst other hother plan' ⟨action', hlacks.compiled⟩ ?_
    rw [Ne, gap?_eq_none, hlacks.missing]
    exact Bool.false_ne_true
  case mem =>
    obtain ⟨entry, hentry, hcompiled⟩ := (compile_planned h).exists_entry hsite_of hsome
    rw [PlanSet.mem_forAction, hplan.unique hcompiled]
    exact hentry

end Capabilities

end RecordPrivacy
