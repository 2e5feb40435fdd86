import RecordPrivacy.Proofs.Plan.Compilation

/-! Where compiled plans come from.

Compilation that succeeds turns every directive into one plan: the plans of a root and the
directives on its ways correspond to each other one by one and in order (`compile_planned`), whatever
the fields are called. Hence every plan is that of a directive (`exists_directive_of_mem`), and every directive
has its plan (`exists_plan_of_directive`). -/
namespace RecordPrivacy
variable {n : Nat} {family : Family n} {root : Fin n}

/-- The plan of a directive, with its action. -/
inductive Compiled : Site n → Action × FieldPlan → Prop
  | directive {way : List (Step n)} {place rank : Nat} {field : FieldSchema n} {shape : Shape}
      {directive : Directive} {parameter : Parameter} : Denotes directive parameter →
      Compiled (.directive way place field shape rank directive)
        (directive.action, (Position.along way).plan field shape parameter)

/-- The parameter of a plan is what the text of the directive stands for. -/
theorem Compiled.denotes {site : Site n} {action : Action} {plan : FieldPlan}
    (h : Compiled site (action, plan)) : ∃ text, Denotes ⟨action, text⟩ plan.parameter := by
  generalize hentry : (action, plan) = entry at h
  cases h with
  | @directive _ _ _ _ _ directive _ hdenotes =>
    obtain ⟨rfl, rfl⟩ := Prod.mk.inj hentry
    exact ⟨directive.parameter, hdenotes⟩

/-- The entries are the plans of the directives in a range of sites, one for each and in their order. -/
def Planned (range : Site n → Prop) (entries : List (Action × FieldPlan)) : Prop :=
  ∃ sites : List (Site n), sites.Pairwise Site.Before ∧
    (∀ site, site ∈ sites ↔ range site ∧ site.action?.isSome) ∧ List.Forall₂ Compiled sites entries

namespace Planned
variable {M L : Site n → Prop} {entries later : List (Action × FieldPlan)}

theorem congr (h : Planned M entries) (same : ∀ site, M site ↔ L site) : Planned L entries := by
  obtain rfl : M = L := funext fun site => propext (same site)
  exact h

theorem none (empty : ∀ site, M site → site.action? = .none) : Planned M [] := by
  refine ⟨[], .nil, fun site => ?_, .nil⟩
  constructor
  · intro h
    cases h
  · intro h
    obtain ⟨hsite, haction⟩ := h
    rw [empty site hsite] at haction
    cases haction

theorem one {site : Site n} {entry : Action × FieldPlan} (h : Compiled site entry) :
    Planned (· = site) [entry] := by
  refine ⟨[site], List.pairwise_singleton _ site, fun other => ?_, .cons h .nil⟩
  rw [List.mem_singleton]
  refine ⟨fun he => ⟨he, ?_⟩, fun he => he.1⟩
  subst he
  cases h
  rfl

theorem append (h : Planned M entries) (h' : Planned L later)
    (order : ∀ a b, M a → L b → a.Before b) :
    Planned (fun site => M site ∨ L site) (entries ++ later) := by
  obtain ⟨sites, hsorted, hmem, hcompiled⟩ := h
  obtain ⟨sites', hsorted', hmem', hcompiled'⟩ := h'
  refine ⟨sites ++ sites', ?_, fun site => ?_, List.rel_append hcompiled hcompiled'⟩
  · exact List.pairwise_append.mpr ⟨hsorted, hsorted', fun a ha b hb =>
      order a b ((hmem a).mp ha).1 ((hmem' b).mp hb).1⟩
  · rw [List.mem_append, hmem, hmem', or_and_right]

theorem exists_site (h : Planned M entries) {entry : Action × FieldPlan} (he : entry ∈ entries) :
    ∃ site, M site ∧ Compiled site entry := by
  obtain ⟨sites, -, hmem, hcompiled⟩ := h
  obtain ⟨site, hsite, h⟩ := forall₂_mem_right hcompiled he
  exact ⟨site, ((hmem site).mp hsite).1, h⟩

theorem exists_entry (h : Planned M entries) {site : Site n} (hsite : M site)
    (haction : site.action?.isSome) : ∃ entry ∈ entries, Compiled site entry := by
  obtain ⟨sites, -, hmem, hcompiled⟩ := h
  exact forall₂_mem_left hcompiled ((hmem site).mpr ⟨hsite, haction⟩)

end Planned

/-! ### Leaves -/

theorem compileLeaf_cons_ok {at_ : Position} {field : FieldSchema n} {shape : Shape}
    {first : Directive} {rest : List Directive} {entries : List (Action × FieldPlan)}
    (h : compileLeaf at_ field shape (first :: rest) = .ok entries) :
    ∃ parameter later, Denotes first parameter ∧ compileLeaf at_ field shape rest = .ok later ∧
      entries = (first.action, at_.plan field shape parameter) :: later := by
  rw [compileLeaf] at h
  cases hresolve : Parameter.resolve? first.action first.parameter with
  | none => simp [hresolve] at h
  | some parameter =>
    cases hlater : compileLeaf at_ field shape rest with
    | error e => simp [hresolve, hlater] at h
    | ok later =>
      simp only [hresolve, hlater, Except.ok.injEq] at h
      exact ⟨parameter, later, Parameter.resolve?_eq_some.mp hresolve, rfl, h.symm⟩

/-- The directives of a leaf, from a rank on. -/
theorem compileLeaf_planned (trail : List (Step n)) (place : Nat) (field : FieldSchema n)
    (shape : Shape) (directives : List Directive) (k : Nat) {entries : List (Action × FieldPlan)}
    (h : compileLeaf (.along trail) field shape directives = .ok entries) :
    Planned (fun site => ∃ i directive, directives[i]? = some directive ∧
      site = .directive trail place field shape (k + i) directive) entries := by
  induction directives generalizing k entries with
  | nil =>
    cases h
    refine .none ?_
    intro site h
    obtain ⟨_, _, h, -⟩ := h
    cases h
  | cons first rest ih =>
    obtain ⟨parameter, later, hdenotes, hlater, rfl⟩ := compileLeaf_cons_ok h
    have hone : Planned (· = Site.directive trail place field shape k first) _ :=
      .one (.directive hdenotes)
    refine (hone.append (ih (k + 1) hlater) ?_).congr fun site => ?_
    · intro _ _ h h'
      subst h
      obtain ⟨i, directive, -, rfl⟩ := h'
      exact Site.before_of_rank (by omega)
    · exact exists_place_cons (P := fun i directive =>
        site = .directive trail place field shape i directive) first rest k

/-! ### Fields -/

section
variable {trail : List (Step n)} {fresh : List (Fin n)} {entries : List (Action × FieldPlan)}

theorem compileField_leaf_planned {place : Nat} {field : FieldSchema n} {shape : Shape}
    {directives : List Directive} (hkind : field.kind = .leaf shape directives)
    (h : compileField family fresh (.along trail) field = .ok entries) :
    Planned (Under family trail place field) entries := by
  rw [compileField] at h
  simp only [hkind] at h
  refine (compileLeaf_planned trail place field shape directives 0 h).congr fun site => ?_
  constructor
  · intro h
    obtain ⟨i, directive, hi, rfl⟩ := h
    rw [Nat.zero_add]
    exact .directive hkind hi
  · intro h
    cases h with
    | directive hleaf hi =>
      cases hkind.symm.trans hleaf
      exact ⟨_, _, hi, by rw [Nat.zero_add]⟩
    | nested hnested => cases hkind.symm.trans hnested
    | below hnested => cases hkind.symm.trans hnested

/-- A nested field has no plan of its own. -/
theorem compileField_nested_planned {place : Nat} {field : FieldSchema n} {optional : Bool}
    {record : Fin n} (hkind : field.kind = .nested optional record)
    (h : compileField family fresh (.along trail) field = .ok entries)
    (below : record ∈ fresh → ∀ entries,
      compileFields family (fresh.erase record)
          (.along (trail ++ [⟨place, field, optional, record⟩])) (family record).fields =
        .ok entries →
      Planned (Within family (trail ++ [⟨place, field, optional, record⟩]) record) entries) :
    Planned (Under family trail place field) entries := by
  obtain ⟨hmem, hentered⟩ := compileField_nested_ok hkind h
  rw [show (Position.along trail).enter field optional =
      .along (trail ++ [⟨place, field, optional, record⟩]) from
    Position.enter_along trail ⟨place, field, optional, record⟩] at hentered
  have hself : Planned (· = Site.nested trail ⟨place, field, optional, record⟩) [] := by
    refine .none fun site hsite => ?_
    subst hsite
    rfl
  refine (hself.append (below hmem entries hentered) ?_).congr fun site => ?_
  · intro _ _ hsite hwithin
    subst hsite
    exact hwithin.nested_before
  · constructor
    · intro h
      obtain rfl | hbelow := h
      · exact .nested hkind
      · exact .below hkind hbelow
    · intro h
      cases h with
      | directive hleaf => cases hkind.symm.trans hleaf
      | nested hnested =>
        cases hkind.symm.trans hnested
        exact .inl rfl
      | below hnested hbelow =>
        cases hkind.symm.trans hnested
        exact .inr hbelow

/-- Fields that are numbered from a place on. -/
theorem compileFields_range_planned (fields : List (FieldSchema n)) (k : Nat)
    (each : ∀ field ∈ fields, ∀ place plans,
      compileField family fresh (.along trail) field = .ok plans →
      Planned (Under family trail place field) plans)
    (h : compileFields family fresh (.along trail) fields = .ok entries) :
    Planned (fun site => ∃ i field, fields[i]? = some field ∧
      Under family trail (k + i) field site) entries := by
  induction fields generalizing k entries with
  | nil =>
    rw [compileFields] at h
    cases h
    refine .none ?_
    intro site h
    obtain ⟨_, _, h, -⟩ := h
    cases h
  | cons field rest ih =>
    obtain ⟨plans, later, hfirst, hlater, rfl⟩ := compileFields_cons_ok h
    have hplans := each field List.mem_cons_self k plans hfirst
    have hrest := ih (k + 1) (fun f hf => each f (List.mem_cons_of_mem _ hf)) hlater
    refine (hplans.append hrest ?_).congr fun site => ?_
    · intro a b hunder h
      obtain ⟨i, f, -, hunder'⟩ := h
      exact hunder.before_of_place hunder' (by omega)
    · exact exists_place_cons (P := fun i f => Under family trail i f site) field rest k

/-- The plans for a type at the end of a way are those of the directives on the ways that go on from
there. -/
theorem compileFields_planned (type : Fin n)
    (h : compileFields family fresh (.along trail) (family type).fields = .ok entries) :
    Planned (Within family trail type) entries := by
  -- The types that can still be entered get fewer on the way down.
  induction hn : fresh.length using Nat.strongRecOn generalizing fresh trail type entries with
  | ind m ih =>
    have heach : ∀ field ∈ (family type).fields, ∀ place plans,
        compileField family fresh (.along trail) field = .ok plans →
        Planned (Under family trail place field) plans := by
      intro field _ place plans hplans
      cases hkind : field.kind with
      | leaf shape directives => exact compileField_leaf_planned hkind hplans
      | nested optional record =>
        refine compileField_nested_planned hkind hplans fun hmem entries hentries => ?_
        have hlength := List.length_erase_of_mem hmem
        have hpos := List.length_pos_of_mem hmem
        exact ih (fresh.erase record).length (by omega) record hentries rfl
    refine (compileFields_range_planned (family type).fields 0 heach h).congr fun site => ?_
    simp only [within_iff, Nat.zero_add]

end

/-! ### Compiled plans -/

variable {plans : PlanSet} {action : Action} {plan : FieldPlan}

theorem PlanSet.mem_forAction :
    plan ∈ plans.forAction action ↔ (action, plan) ∈ plans.entries := by
  simp only [forAction, List.mem_filterMap, Prod.exists]
  constructor
  · intro h
    obtain ⟨a, p, hmem, hif⟩ := h
    by_cases ha : a = action
    · rw [if_pos ha, Option.some.injEq] at hif
      rwa [← ha, ← hif]
    · rw [if_neg ha] at hif
      cases hif
  · intro h
    exact ⟨action, plan, h, if_pos rfl⟩

/-- **The plans of a root are those of its directives**, one for each and in declaration order. -/
theorem compile_planned (h : PlanSet.compile family root = .ok plans) :
    Planned (Site.Of family root) plans.entries := by
  obtain ⟨entries, hfields, rfl⟩ := compile_ok_iff.mp h
  rw [← Position.along_nil] at hfields
  exact (compileFields_planned root hfields).congr fun site => within_nil_iff

/-- Every plan of an action comes from a directive of that action. -/
theorem exists_directive_of_mem (h : PlanSet.compile family root = .ok plans)
    (hplan : plan ∈ plans.forAction action) :
    ∃ way place field shape rank text,
      Site.Of family root (.directive way place field shape rank ⟨action, text⟩) ∧
      Denotes ⟨action, text⟩ plan.parameter ∧
      plan = (Position.along way).plan field shape plan.parameter := by
  obtain ⟨site, hsite, hcompiled⟩ :=
    (compile_planned h).exists_site (PlanSet.mem_forAction.mp hplan)
  generalize hentry : (action, plan) = entry at hcompiled
  cases hcompiled with
  | @directive way place rank field shape directive parameter hdenotes =>
    obtain ⟨rfl, rfl⟩ := Prod.mk.inj hentry
    exact ⟨way, place, field, shape, rank, directive.parameter, hsite, hdenotes, rfl⟩

/-- Every directive has its plan. -/
theorem exists_plan_of_directive (h : PlanSet.compile family root = .ok plans)
    {way : List (Step n)} {place rank : Nat} {field : FieldSchema n} {shape : Shape}
    {directive : Directive}
    (hsite : Site.Of family root (.directive way place field shape rank directive)) :
    ∃ parameter, Denotes directive parameter ∧
      (Position.along way).plan field shape parameter ∈ plans.forAction directive.action := by
  obtain ⟨entry, hmem, hcompiled⟩ := (compile_planned h).exists_entry hsite rfl
  cases hcompiled with
  | directive hdenotes => exact ⟨_, hdenotes, PlanSet.mem_forAction.mpr hmem⟩

theorem Denotes.unique {directive : Directive} {a b : Parameter} (ha : Denotes directive a)
    (hb : Denotes directive b) : a = b :=
  Option.some.inj ((Parameter.resolve?_eq_some.mpr ha).symm.trans (Parameter.resolve?_eq_some.mpr hb))

theorem Denotes.eq_masker {text : String} {parameter : Parameter}
    (h : Denotes ⟨.mask, text⟩ parameter) :
    ∃ format : MaskFormat, text = format.text ∧ parameter = .masker format := by
  cases h with
  | encryptor _ haction => simp at haction
  | masker format => exact ⟨format, rfl, rfl⟩

theorem Denotes.eq_literal {text : String} {parameter : Parameter}
    (h : Denotes ⟨.redact, text⟩ parameter) : parameter = .literal text := by
  cases h with
  | encryptor _ haction => simp at haction
  | literal => rfl

/-- Encryption and decryption are planned with encryption algorithms. -/
theorem encryptor_of_compile (h : PlanSet.compile family root = .ok plans)
    (haction : action = .encrypt ∨ action = .decrypt) :
    ∀ plan ∈ plans.forAction action, ∃ algorithm, plan.parameter = .encryptor algorithm := by
  intro plan hplan
  obtain ⟨_, _, _, _, _, text, -, hdenotes, -⟩ := exists_directive_of_mem h hplan
  rcases haction with rfl | rfl
  · cases hp : plan.parameter <;> rw [hp] at hdenotes <;> cases hdenotes
    exact ⟨_, rfl⟩
  · cases hp : plan.parameter <;> rw [hp] at hdenotes <;> cases hdenotes
    exact ⟨_, rfl⟩

end RecordPrivacy
