import RecordPrivacy.Processor
import RecordPrivacy.Proofs.Plan.Distinct

/-! Plans of a nested type.

Compilation goes into a nested field as it would start on the type nested there, from another
position. So the plans that a type has below such a field are those of the nested type, in the same
order, each with the field's index in front of its path and the field's name in front of its own
(`RecordType.Nests.forAction`). -/
namespace RecordPrivacy
variable {n : Nat} {family : Family n}

/-- The plan of a type that is nested at the end of a step, as a plan of the type that the step
starts from. -/
def FieldPlan.below (step : Step n) (plan : FieldPlan) : FieldPlan where
  path := step.field.index :: plan.path
  optionalSteps := (if step.optional then [0] else []) ++ plan.optionalSteps.map (· + 1)
  name := step.field.name ++ "." ++ plan.name
  parameter := plan.parameter
  shape := plan.shape

/-- The plan is below the field, or that of the field itself. -/
def FieldPlan.Through (field : FieldSchema n) (plan : FieldPlan) : Prop :=
  plan.path.head? = some field.index

instance (field : FieldSchema n) (plan : FieldPlan) : Decidable (plan.Through field) :=
  inferInstanceAs (Decidable (_ = _))

/-! ### From another position -/

theorem optionalPlaces_cons (step : Step n) (way : List (Step n)) :
    optionalPlaces (step :: way) =
      (if step.optional then [0] else []) ++ (optionalPlaces way).map (· + 1) := by
  rw [optionalPlaces, List.length_cons, List.range_succ_eq_map, List.filter_cons, List.filter_map,
    optionalPlaces]
  cases h : step.optional <;> simp [h, Function.comp_def]

/-- A step in front of the way changes a plan in one and the same manner wherever it is. -/
theorem Position.plan_along_cons (step : Step n) (way : List (Step n)) (field : FieldSchema n)
    (shape : Shape) (parameter : Parameter) (hstep : step.field.name ≠ "")
    (hway : ∀ s ∈ way, s.field.name ≠ "") :
    (along (step :: way)).plan field shape parameter =
      ((along way).plan field shape parameter).below step := by
  have hnamed : ∀ s ∈ step :: way, s.field.name ≠ "" := by
    intro s hs
    rcases List.mem_cons.mp hs with rfl | hs
    · exact hstep
    · exact hway s hs
  have hname : (along (step :: way)).dotted field.name =
      step.field.name ++ "." ++ (along way).dotted field.name := by
    rw [dotted_along _ _ hnamed, dotted_along _ _ hway, List.map_cons, List.cons_append,
      String.intercalate_cons_of_ne_nil (by simp)]
  rw [Position.plan, Position.plan, FieldPlan.below, hname]
  simp only [along, optionalPlaces_cons, List.map_cons, List.cons_append]

section
variable {step : Step n} {trail : List (Step n)} {entries entries' : List (Action × FieldPlan)}

theorem compileLeaf_below (hstep : step.field.name ≠ "") (htrail : ∀ s ∈ trail, s.field.name ≠ "")
    {field : FieldSchema n} {shape : Shape} {directives : List Directive}
    (h : compileLeaf (.along trail) field shape directives = .ok entries)
    (h' : compileLeaf (.along (step :: trail)) field shape directives = .ok entries') :
    entries' = entries.map (Prod.map id (FieldPlan.below step)) := by
  induction directives generalizing entries entries' with
  | nil =>
    cases h
    cases h'
    rfl
  | cons first rest ih =>
    obtain ⟨parameter, later, hdenotes, hlater, rfl⟩ := compileLeaf_cons_ok h
    obtain ⟨parameter', later', hdenotes', hlater', rfl⟩ := compileLeaf_cons_ok h'
    rw [hdenotes'.unique hdenotes, ih hlater hlater',
      Position.plan_along_cons step trail field shape parameter hstep htrail]
    rfl

/-- What is compiled behind one more step is what is compiled without it, below the step. The types
that may still be entered need not be the same: they decide whether there is a result, not which. -/
theorem compileFields_below (named : ∀ type, ∀ field ∈ (family type).fields, field.name ≠ "")
    (hstep : step.field.name ≠ "") (htrail : ∀ s ∈ trail, s.field.name ≠ "")
    {fresh fresh' : List (Fin n)} {fields : List (FieldSchema n)}
    (hfields : ∀ field ∈ fields, field.name ≠ "")
    (h : compileFields family fresh (.along trail) fields = .ok entries)
    (h' : compileFields family fresh' (.along (step :: trail)) fields = .ok entries') :
    entries' = entries.map (Prod.map id (FieldPlan.below step)) := by
  -- The types that can still be entered get fewer on the way down.
  induction hn : fresh.length using Nat.strongRecOn
    generalizing fresh fresh' trail fields entries entries' with
  | ind m ih =>
    induction fields generalizing entries entries' with
    | nil =>
      rw [compileFields] at h h'
      cases h
      cases h'
      rfl
    | cons field rest ihrest =>
      obtain ⟨here, later, hhere, hlater, rfl⟩ := compileFields_cons_ok h
      obtain ⟨here', later', hhere', hlater', rfl⟩ := compileFields_cons_ok h'
      have hname := hfields field List.mem_cons_self
      have hfirst : here' = here.map (Prod.map id (FieldPlan.below step)) := by
        cases hkind : field.kind with
        | leaf shape directives =>
          rw [compileField] at hhere hhere'
          simp only [hkind] at hhere hhere'
          exact compileLeaf_below hstep htrail hhere hhere'
        | nested optional record =>
          obtain ⟨hmem, hbelow⟩ := compileField_nested_ok hkind hhere
          obtain ⟨-, hbelow'⟩ := compileField_nested_ok hkind hhere'
          have hlength := List.length_erase_of_mem hmem
          have hpos := List.length_pos_of_mem hmem
          have henter : ∀ way : List (Step n), (Position.along way).enter field optional =
              .along (way ++ [⟨0, field, optional, record⟩]) :=
            fun way => Position.enter_along way ⟨0, field, optional, record⟩
          rw [henter] at hbelow hbelow'
          refine ih (fresh.erase record).length (by omega) ?_ (named record) hbelow hbelow' rfl
          intro s hs
          rcases List.mem_append.mp hs with hs | hs
          · exact htrail s hs
          · cases List.mem_singleton.mp hs
            exact hname
      rw [hfirst, ihrest (fun f hf => hfields f (List.mem_cons_of_mem _ hf)) hlater hlater',
        List.map_append]

end

/-! ### The plans of one field -/

section
variable {trail : List (Step n)} {fresh : List (Fin n)} {entries : List (Action × FieldPlan)}
  {fields : List (FieldSchema n)} {field : FieldSchema n}

theorem Under.path {place : Nat} {site : Site n} (h : Under family trail place field site) :
    ∃ rest, site.path = trail.map (·.field.index) ++ field.index :: rest := by
  cases h with
  | directive _ _ => exact ⟨[], rfl⟩
  | nested _ => exact ⟨[], rfl⟩
  | below _ hwithin =>
    obtain ⟨way, _, hway, -, -⟩ := hwithin
    refine ⟨way.map (·.field.index) ++ [site.field.index], ?_⟩
    rw [Site.path, hway]
    simp

theorem through_of_compileField (h : compileField family fresh .root field = .ok entries) :
    ∀ entry ∈ entries, entry.2.Through field := by
  rw [← Position.along_nil] at h
  have hplanned : Planned (Under family [] 0 field) entries := by
    cases hkind : field.kind with
    | leaf shape directives => exact compileField_leaf_planned hkind h
    | nested optional record =>
      exact compileField_nested_planned hkind h fun _ _ hbelow =>
        compileFields_planned record hbelow
  intro entry hentry
  obtain ⟨site, hunder, hcompiled⟩ := hplanned.exists_site hentry
  obtain ⟨rest, hpath⟩ := hunder.path
  rw [FieldPlan.Through, hcompiled.path_eq, hpath]
  rfl

/-- A field with another index has no plan that leads through this one. -/
theorem not_through_of_compileField {other : FieldSchema n} (hother : other.index ≠ field.index)
    (h : compileField family fresh .root other = .ok entries) :
    entries.filter (fun entry => entry.2.Through field) = [] := by
  refine List.filter_eq_nil_iff.mpr fun entry hentry => ?_
  have hthrough := through_of_compileField h entry hentry
  rw [decide_eq_true_eq]
  intro hfield
  exact hother (Option.some.inj (hthrough.symm.trans hfield))

theorem not_through_of_compileFields (others : ∀ other ∈ fields, other.index ≠ field.index)
    (h : compileFields family fresh .root fields = .ok entries) :
    entries.filter (fun entry => entry.2.Through field) = [] := by
  induction fields generalizing entries with
  | nil =>
    rw [compileFields] at h
    cases h
    rfl
  | cons first rest ih =>
    obtain ⟨here, later, hhere, hlater, rfl⟩ := compileFields_cons_ok h
    rw [List.filter_append,
      not_through_of_compileField (others first List.mem_cons_self) hhere,
      ih (fun other hother => others other (List.mem_cons_of_mem _ hother)) hlater,
      List.append_nil]

/-- The plans that lead through a field are those compiled for it, if no other has its index. -/
theorem through_of_compileFields {place : Nat} (declared : fields[place]? = some field)
    (alone : ∀ i other, fields[i]? = some other → other.index = field.index → i = place)
    (h : compileFields family fresh .root fields = .ok entries) :
    compileField family fresh .root field =
      .ok (entries.filter fun entry => entry.2.Through field) := by
  induction fields generalizing place entries with
  | nil => cases declared
  | cons first rest ih =>
    obtain ⟨here, later, hhere, hlater, rfl⟩ := compileFields_cons_ok h
    rw [List.filter_append]
    cases place with
    | zero =>
      cases declared
      have hothers : ∀ other ∈ rest, other.index ≠ field.index := by
        intro other hother hindex
        obtain ⟨i, hi⟩ := List.mem_iff_getElem?.mp hother
        have hplace := alone (i + 1) other hi hindex
        omega
      have hall : here.filter (fun entry => entry.2.Through field) = here :=
        List.filter_eq_self.mpr fun entry hentry =>
          decide_eq_true (through_of_compileField hhere entry hentry)
      rw [hall, not_through_of_compileFields hothers hlater, List.append_nil, hhere]
    | succ place =>
      have hfirst : first.index ≠ field.index := by
        intro hindex
        have hplace := alone 0 first rfl hindex
        omega
      rw [not_through_of_compileField hfirst hhere, List.nil_append]
      refine ih declared (fun i other hi hindex => ?_) hlater
      have hplace := alone (i + 1) other hi hindex
      omega

end

/-! ### Nested types -/

/-- One type is nested in another, at a field that has its index for itself. -/
inductive RecordType.Nests (outer : RecordType) : Step outer.size → RecordType → Prop
  | intro {step : Step outer.size} {overrides : List Action}
      {runOverride : Action → Capabilities → Record →
        Drawn (Record × Option (Except CapabilityError Unit))}
      {empty : Record} {toJson : Record → Except String Json} :
      step.Of (outer.family outer.root).fields →
      (∀ i field, (outer.family outer.root).fields[i]? = some field →
        field.index = step.field.index → i = step.place) →
      Nests outer step
        ⟨outer.size, outer.family, step.record, overrides, runOverride, empty, toJson⟩

theorem PlanSet.filter_forAction (plans : PlanSet) (action : Action) (keeps : FieldPlan → Bool) :
    (plans.forAction action).filter keeps =
      (⟨plans.typeName, plans.entries.filter fun entry => keeps entry.2⟩ : PlanSet).forAction
        action := by
  rw [forAction, forAction, List.filter_filterMap, List.filterMap_filter]
  congr 1
  funext entry
  obtain ⟨a, plan⟩ := entry
  by_cases ha : a = action <;> cases hk : keeps plan <;> simp [ha, hk]

theorem PlanSet.map_forAction (plans : PlanSet) (action : Action) (f : FieldPlan → FieldPlan) :
    (plans.forAction action).map f =
      (⟨plans.typeName, plans.entries.map (Prod.map id f)⟩ : PlanSet).forAction action := by
  rw [forAction, forAction, List.map_filterMap, List.filterMap_map]
  congr 1
  funext entry
  obtain ⟨a, plan⟩ := entry
  by_cases ha : a = action <;> simp [ha]

/-- **The plans below a nested field are those of the nested type**, one by one and in their order,
each with the field in front. -/
theorem RecordType.Nests.forAction {outer inner : RecordType} {step : Step outer.size}
    (nests : outer.Nests step inner)
    (named : ∀ type, ∀ field ∈ (outer.family type).fields, field.name ≠ "") {plans plans' : PlanSet}
    (compiled : PlanSet.compile outer.family outer.root = .ok plans)
    (compiled' : PlanSet.compile inner.family inner.root = .ok plans') (action : Action) :
    (plans.forAction action).filter (fun plan => plan.Through step.field) =
      (plans'.forAction action).map (FieldPlan.below step) := by
  cases nests with
  | intro nested alone =>
    obtain ⟨entries, hfields, rfl⟩ := compile_ok_iff.mp compiled
    obtain ⟨entries', hfields', rfl⟩ := compile_ok_iff.mp compiled'
    have hfield := through_of_compileFields nested.declared alone hfields
    obtain ⟨-, hbelow⟩ := compileField_nested_ok nested.nested hfield
    rw [← Position.along_nil, Position.enter_along, List.nil_append] at hbelow
    have hentries : entries.filter (fun entry => entry.2.Through step.field) =
        entries'.map (Prod.map id (FieldPlan.below step)) :=
      compileFields_below named
        (named _ _ (List.mem_of_getElem? nested.declared)) (by simp) (named step.record) hfields'
        hbelow
    rw [PlanSet.filter_forAction, PlanSet.map_forAction, hentries]
    rfl

end RecordPrivacy
