import RecordPrivacy.Proofs.Plan.Fields
import RecordPrivacy.Sample.Forms

/-! What compilation yields.

The sites of a root are those on the ways that start there, hence the result for the type of the
root is the result for all of them (`compile_reports`), and `compile_exact` spells it out. -/
namespace RecordPrivacy
variable {n : Nat} {family : Family n} {root : Fin n}

theorem Way.append {type mid last : Fin n} {way way' : List (Step n)}
    (h : Way family type way mid) (h' : Way family mid way' last) :
    Way family type (way ++ way') last := by
  induction h with
  | nil => exact h'
  | cons hstep _ ih => exact .cons hstep (ih h')

theorem chain_append (root : Fin n) (way : List (Step n)) (step : Step n) :
    chain root (way ++ [step]) = chain root way ++ [step.record] := by
  simp [chain]

/-- No type comes twice on a way if no nested field is refused. -/
theorem nodup_chain (trail : List (Step n)) {way : List (Step n)} {type last : Fin n}
    (fresh : ∀ way step, (Site.nested way step).Of family root → step.record ∉ chain root way)
    (htrail : Way family root trail type) (hnodup : (chain root trail).Nodup)
    (h : Way family type way last) : (chain root (trail ++ way)).Nodup := by
  induction h generalizing trail with
  | nil => rwa [List.append_nil]
  | @cons type last step way hstep hway ih =>
    have hnew := fresh trail step ⟨type, htrail, .nested hstep⟩
    have hnext : (chain root (trail ++ [step])).Nodup := by
      rw [chain_append]
      refine List.nodup_append.mpr ⟨hnodup, by simp, fun a ha b hb => ?_⟩
      rw [List.mem_singleton.mp hb]
      exact fun he => hnew (he ▸ ha)
    have h := ih _ (htrail.append (.cons hstep .nil)) hnext
    rwa [List.append_assoc] at h

/-- Nothing is refused just if no type comes twice on a way and every directive has a parameter. -/
theorem accepted_iff : (∀ site, Site.Of family root site → ∀ e, ¬ Refused family root site e) ↔
    (∀ way last, Way family root way last → (chain root way).Nodup) ∧
      ∀ way place field shape rank directive,
        Site.Of family root (.directive way place field shape rank directive) →
        ∃ parameter, Denotes directive parameter := by
  constructor
  · intro accepted
    refine ⟨fun way last hway => ?_, fun way place field shape rank directive hsite => ?_⟩
    · refine nodup_chain [] (fun way step hsite hmem => ?_) .nil (by simp [chain]) hway
      exact accepted _ hsite _ (.recursion rfl hmem)
    · by_contra hno
      exact accepted _ hsite _ (.parameter rfl fun p hp => hno ⟨p, hp⟩)
  · intro h site hsite e hrefused
    obtain ⟨hnodup, hdenotes⟩ := h
    cases hrefused with
    | parameter hdirective hno =>
      subst hdirective
      obtain ⟨p, hp⟩ := hdenotes _ _ _ _ _ _ hsite
      exact hno p hp
    | recursion hnested hmem =>
      subst hnested
      obtain ⟨last, hway, hat⟩ := hsite
      cases hat with
      | nested hstep =>
        have h := hnodup _ _ (hway.append (.cons hstep .nil))
        rw [chain_append] at h
        exact (List.nodup_append.mp h).2.2 _ hmem _ List.mem_cons_self rfl

theorem PlannedAs.action?_eq {site : Site n} {entry : Action × FieldPlan}
    (h : PlannedAs site entry) : site.action? = some entry.1 := by
  cases h with
  | directive hsite _ =>
    subst hsite
    rfl

/-- The plans of one action are those of its directives, however directives and plans correspond. -/
theorem forall₂_forAction {R : Site n → Action × FieldPlan → Prop}
    {sites : List (Site n)} {entries : List (Action × FieldPlan)}
    (action?_eq : ∀ site entry, R site entry → site.action? = some entry.1)
    (h : List.Forall₂ R sites entries) (typeName : String) (action : Action) :
    List.Forall₂ (fun site plan => R site (action, plan))
      (sites.filter fun site => site.action? = some action)
      ((⟨typeName, entries⟩ : PlanSet).forAction action) := by
  induction h with
  | nil => exact .nil
  | @cons site entry sites entries hfirst _ ih =>
    have hsite := action?_eq site entry hfirst
    obtain ⟨a, plan⟩ := entry
    by_cases ha : a = action
    · subst ha
      simp only [PlanSet.forAction, List.filter_cons, hsite, List.filterMap_cons, decide_true,
        if_true]
      exact .cons hfirst ih
    · simp only [PlanSet.forAction, List.filter_cons, hsite, List.filterMap_cons, ha, if_false,
        Option.some.injEq, decide_false, Bool.false_eq_true]
      exact ih

theorem compile_reports (family : Family n) (root : Fin n)
    (named : ∀ type, ∀ field ∈ (family type).fields, field.name ≠ "") :
    Reports family root (Site.Of family root)
      (compileFields family ((List.finRange n).erase root) .root (family root).fields) := by
  have h := compileFields_reports named (Fresh.start root) (fun step hstep => by cases hstep) root
  rw [Position.along_nil] at h
  exact h.congr fun site => within_nil_iff

/-- **Compilation is exact.** There are plans just if no type comes twice on a way and every
directive has a parameter that its action accepts; then the plans of each action are those of its
directives, one by one and in their order. Else the error is that of the first site that is
refused. -/
theorem compile_exact (family : Family n) (root : Fin n)
    (named : ∀ type, ∀ field ∈ (family type).fields, field.name ≠ "") :
    ((∃ plans, PlanSet.compile family root = .ok plans) ↔
      (∀ way last, Way family root way last → (chain root way).Nodup) ∧
        ∀ way place field shape rank directive,
          Site.Of family root (.directive way place field shape rank directive) →
          ∃ parameter, Denotes directive parameter) ∧
    (∀ plans, PlanSet.compile family root = .ok plans →
      plans.typeName = (family root).name ∧
      ∀ action, ∃ sites : List (Site n), sites.Pairwise Site.Before ∧
        (∀ site, site ∈ sites ↔ site.Of family root ∧ site.action? = some action) ∧
        List.Forall₂ (fun site plan => PlannedAs site (action, plan)) sites
          (plans.forAction action)) ∧
    ∀ e, PlanSet.compile family root = .error e →
      ∃ site, Site.Of family root site ∧ Refused family root site e ∧
        ∀ other e', Site.Of family root other → Refused family root other e' →
          other = site ∨ site.Before other := by
  have hreports := compile_reports family root named
  rw [← accepted_iff]
  unfold PlanSet.compile
  cases hfields : compileFields family ((List.finRange n).erase root) .root
      (family root).fields with
  | error e =>
    rw [hfields] at hreports
    cases hreports with
    | @error site _ hsite hrefused hfirst =>
      refine ⟨⟨?_, fun accepted => absurd hrefused (accepted site hsite e)⟩, ?_, ?_⟩
      · intro h
        obtain ⟨plans, h⟩ := h
        cases h
      · intro plans h
        cases h
      · intro e' h
        cases h
        exact ⟨site, hsite, hrefused, hfirst⟩
  | ok entries =>
    rw [hfields] at hreports
    cases hreports with
    | @ok sites _ hnone hsorted hmem hplanned =>
      refine ⟨⟨fun _ => hnone, fun _ => ⟨_, rfl⟩⟩, ?_, ?_⟩
      · intro plans h
        cases h
        refine ⟨rfl, fun action => ⟨_, ?_, fun site => ?_,
          forall₂_forAction (fun _ _ h => h.action?_eq) hplanned _ action⟩⟩
        · exact (hsorted.filter _).filter _
        · simp only [List.mem_filter, hmem, decide_eq_true_eq]
          constructor
          · intro h
            obtain ⟨⟨hsite, -⟩, haction⟩ := h
            exact ⟨hsite, haction⟩
          · intro h
            obtain ⟨hsite, haction⟩ := h
            exact ⟨⟨hsite, by rw [haction]; rfl⟩, haction⟩
      · intro e h
        cases h

open Sample in
/-- One type nested twice is not on the way to itself. -/
theorem form_compiled : ∃ sites : List (Site 2), sites.Pairwise Site.Before ∧
    (∀ site, site ∈ sites ↔ site.Of formFamily formRoot ∧ site.action? = some .mask) ∧
    List.Forall₂ (fun site plan => PlannedAs site (.mask, plan)) sites
      (formPlans (.masker .name)) := by
  have hcompile : PlanSet.compile formFamily formRoot = .ok formPlanSet := by cbv
  obtain ⟨-, hplanned⟩ := (compile_exact formFamily formRoot (by decide)).2.1 _ hcompile
  exact hplanned .mask

end RecordPrivacy
