import RecordPrivacy.Proofs.Plan.Ranges

/-! The result for a type at the end of a way.

One induction over the directives of a leaf and one over the fields of a type, inside an induction
on the number of types that can still be entered, give the result for all sites on the ways that go
on from a type (`compileFields_reports`). -/
namespace RecordPrivacy
variable {n : Nat} {family : Family n} {root : Fin n}

/-! ### Leaves -/

/-- The directives of a leaf, from a rank on. -/
theorem compileLeaf_reports (trail : List (Step n)) (place : Nat) (field : FieldSchema n)
    (shape : Shape) (directives : List Directive) (k : Nat)
    (named : ∀ step ∈ trail, step.field.name ≠ "") :
    Reports family root
      (fun site => ∃ i directive, directives[i]? = some directive ∧
        site = .directive trail place field shape (k + i) directive)
      (compileLeaf (.along trail) field shape directives) := by
  induction directives generalizing k with
  | nil =>
    refine .none ?_
    intro site h
    obtain ⟨_, _, h, -⟩ := h
    cases h
  | cons first rest ih =>
    let site : Site n := .directive trail place field shape k first
    have hname : (Position.along trail).dotted field.name = site.name :=
      Position.dotted_along trail field.name named
    have hrange : ∀ s, (s = site ∨ ∃ i directive, rest[i]? = some directive ∧
        s = .directive trail place field shape (k + 1 + i) directive) ↔
        ∃ i directive, (first :: rest)[i]? = some directive ∧
          s = .directive trail place field shape (k + i) directive := by
      intro s
      exact exists_place_cons (P := fun i directive =>
        s = .directive trail place field shape i directive) first rest k
    have horder : ∀ a b, a = site → (∃ i directive, rest[i]? = some directive ∧
        b = .directive trail place field shape (k + 1 + i) directive) → a.Before b := by
      intro _ _ h h'
      subst h
      obtain ⟨i, directive, -, rfl⟩ := h'
      exact Site.before_of_rank (by omega)
    refine Reports.congr ?_ hrange
    cases hresolve : Parameter.resolve? first.action first.parameter with
    | none =>
      have hrefused : Refused family root site
          (.invalidParameter site.name first.action first.parameter) := by
        refine .parameter rfl fun p hp => ?_
        rw [Parameter.resolve?_eq_some.mpr hp] at hresolve
        cases hresolve
      simp only [compileLeaf, hresolve, hname]
      exact (Reports.one_error hrefused).error_append horder
    | some parameter =>
      have hdenotes := Parameter.resolve?_eq_some.mp hresolve
      have hone : Reports family root (· = site)
          (.ok [(first.action, (Position.along trail).plan field shape parameter)]) := by
        refine .one_ok (fun e => Refused.not_of_denotes hdenotes) (.cons ?_ .nil)
        rw [Position.plan, hname]
        exact .directive rfl hdenotes
      have hboth := hone.append (ih (k + 1)) horder
      simp only [compileLeaf, hresolve]
      cases hlater : compileLeaf (.along trail) field shape rest <;> rw [hlater] at hboth <;>
        exact hboth

/-! ### Fields -/

/-- The result for one field. -/
def compileField (family : Family n) (fresh : List (Fin n)) (at_ : Position)
    (field : FieldSchema n) : Except CompileError (List (Action × FieldPlan)) :=
  match field.kind with
  | .leaf shape directives => compileLeaf at_ field shape directives
  | .nested optional record =>
    if fresh.contains record then
      compileFields family (fresh.erase record) (at_.enter field optional) (family record).fields
    else .error (.recursiveType (at_.dotted field.name) (family record).name)

theorem compileFields_cons (family : Family n) (fresh : List (Fin n)) (at_ : Position)
    (field : FieldSchema n) (rest : List (FieldSchema n)) :
    compileFields family fresh at_ (field :: rest) =
      (compileField family fresh at_ field).bind fun entries =>
        (compileFields family fresh at_ rest).map (entries ++ ·) := by
  rw [compileFields, compileField]
  cases field.kind with
  | leaf shape directives =>
    simp only
    cases compileLeaf at_ field shape directives <;> cases compileFields family fresh at_ rest <;>
      rfl
  | nested optional record =>
    by_cases h : record ∈ fresh
    · simp only [dif_pos h, List.contains_iff_mem.mpr h, if_true]
      cases compileFields family (fresh.erase record) (at_.enter field optional)
        (family record).fields <;> cases compileFields family fresh at_ rest <;> rfl
    · have hc : ¬ fresh.contains record = true := fun hc => h (List.contains_iff_mem.mp hc)
      simp only [dif_neg h, if_neg hc]
      rfl

/-- Fields have plans if each has them: first those of the first field. -/
theorem compileFields_cons_ok {fresh : List (Fin n)} {at_ : Position} {field : FieldSchema n}
    {rest : List (FieldSchema n)} {entries : List (Action × FieldPlan)}
    (h : compileFields family fresh at_ (field :: rest) = .ok entries) :
    ∃ here later, compileField family fresh at_ field = .ok here ∧
      compileFields family fresh at_ rest = .ok later ∧ entries = here ++ later := by
  rw [compileFields_cons] at h
  cases hhere : compileField family fresh at_ field with
  | error e =>
    rw [hhere] at h
    cases h
  | ok here =>
    cases hlater : compileFields family fresh at_ rest with
    | error e =>
      rw [hhere, hlater] at h
      cases h
    | ok later =>
      rw [hhere, hlater] at h
      cases h
      exact ⟨here, later, rfl, rfl, rfl⟩

/-- A nested field has plans only if its type can still be entered: those of that type. -/
theorem compileField_nested_ok {fresh : List (Fin n)} {at_ : Position} {field : FieldSchema n}
    {optional : Bool} {record : Fin n} {entries : List (Action × FieldPlan)}
    (hkind : field.kind = .nested optional record)
    (h : compileField family fresh at_ field = .ok entries) :
    record ∈ fresh ∧ compileFields family (fresh.erase record) (at_.enter field optional)
      (family record).fields = .ok entries := by
  rw [compileField] at h
  simp only [hkind] at h
  by_cases hmem : record ∈ fresh
  · rw [if_pos (List.contains_iff_mem.mpr hmem)] at h
    exact ⟨hmem, h⟩
  · rw [if_neg fun hc => hmem (List.contains_iff_mem.mp hc)] at h
    cases h

/-- The plans of a type carry its name, and are those of its fields. -/
theorem compile_ok_iff {plans : PlanSet} : PlanSet.compile family root = .ok plans ↔
    ∃ entries, compileFields family ((List.finRange n).erase root) .root (family root).fields =
      .ok entries ∧ plans = ⟨(family root).name, entries⟩ := by
  rw [PlanSet.compile]
  cases compileFields family ((List.finRange n).erase root) .root (family root).fields with
  | error e =>
    constructor
    · intro h
      cases h
    · intro h
      obtain ⟨_, h, -⟩ := h
      cases h
  | ok entries =>
    constructor
    · intro h
      cases h
      exact ⟨entries, rfl, rfl⟩
    · intro h
      obtain ⟨_, h, rfl⟩ := h
      cases h
      rfl

/-- The types that are not on the way, each once. -/
structure Fresh (root : Fin n) (way : List (Step n)) (fresh : List (Fin n)) : Prop where
  nodup : fresh.Nodup
  mem_iff : ∀ type, type ∈ fresh ↔ type ∉ chain root way

theorem Fresh.start (root : Fin n) : Fresh root [] ((List.finRange n).erase root) := by
  have hnodup := List.nodup_finRange n
  refine ⟨hnodup.erase root, fun type => ?_⟩
  rw [hnodup.mem_erase_iff]
  simp [chain, List.mem_finRange]

theorem Fresh.enter {way : List (Step n)} {fresh : List (Fin n)} (h : Fresh root way fresh)
    (step : Step n) : Fresh root (way ++ [step]) (fresh.erase step.record) := by
  refine ⟨h.nodup.erase step.record, fun type => ?_⟩
  rw [h.nodup.mem_erase_iff, h.mem_iff]
  simp only [chain, List.map_append, List.map_cons, List.map_nil, List.mem_cons, List.mem_append,
    List.not_mem_nil, or_false, not_or]
  tauto

section
variable {trail : List (Step n)} {fresh : List (Fin n)}

/-- A nested field comes first; then, if it is entered, what is below it. -/
theorem compileField_nested (hfresh : Fresh root trail fresh)
    (named : ∀ step ∈ trail, step.field.name ≠ "") {place : Nat} {field : FieldSchema n}
    {optional : Bool} {record : Fin n} (hkind : field.kind = .nested optional record)
    (below : record ∈ fresh →
      Reports family root (Within family (trail ++ [⟨place, field, optional, record⟩]) record)
        (compileFields family (fresh.erase record)
          (.along (trail ++ [⟨place, field, optional, record⟩])) (family record).fields)) :
    Reports family root (Under family trail place field)
      (compileField family fresh (.along trail) field) := by
  let step : Step n := ⟨place, field, optional, record⟩
  have hname : (Position.along trail).dotted field.name = (Site.nested trail step).name :=
    Position.dotted_along trail field.name named
  have hrange : ∀ site, (site = .nested trail step ∨ Within family (trail ++ [step]) record site) ↔
      Under family trail place field site := by
    intro site
    constructor
    · intro h
      obtain rfl | hbelow := h
      · exact .nested hkind
      · exact .below hkind hbelow
    · intro h
      cases h with
      | directive hleaf => cases hkind.symm.trans hleaf
      | nested hnested =>
        cases hkind.symm.trans hnested
        exact .inl rfl
      | below hnested hbelow =>
        cases hkind.symm.trans hnested
        exact .inr hbelow
  have horder : ∀ a b : Site n, a = .nested trail step →
      Within family (trail ++ [step]) record b → a.Before b := by
    intro _ b h hb
    subst h
    exact hb.nested_before
  refine Reports.congr ?_ hrange
  rw [compileField]
  simp only [hkind, hname]
  by_cases hmem : record ∈ fresh
  · have hone : Reports family root (· = .nested trail step) (.ok []) :=
      .one_ok (fun e => Refused.not_of_not_mem ((hfresh.mem_iff record).mp hmem)) .nil
    have hboth := hone.append (below hmem) horder
    rw [if_pos (List.contains_iff_mem.mpr hmem),
      show (Position.along trail).enter field optional = .along (trail ++ [step]) from
        Position.enter_along trail step]
    have hmap : ∀ r : Except CompileError (List (Action × FieldPlan)), r.map ([] ++ ·) = r := by
      intro r
      cases r <;> rfl
    rwa [hmap] at hboth
  · have hrefused : Refused family root (.nested trail step)
        (.recursiveType (Site.nested trail step).name (family record).name) :=
      .recursion rfl (by_contra fun h => hmem ((hfresh.mem_iff record).mpr h))
    rw [if_neg fun hc => hmem (List.contains_iff_mem.mp hc)]
    exact (Reports.one_error hrefused).error_append horder

theorem compileField_leaf (named : ∀ step ∈ trail, step.field.name ≠ "") {place : Nat}
    {field : FieldSchema n} {shape : Shape} {directives : List Directive}
    (hkind : field.kind = .leaf shape directives) :
    Reports family root (Under family trail place field)
      (compileField family fresh (.along trail) field) := by
  have hrange : ∀ site, (∃ i directive, directives[i]? = some directive ∧
      site = .directive trail place field shape (0 + i) directive) ↔
      Under family trail place field site := by
    intro site
    constructor
    · intro h
      obtain ⟨i, directive, hi, rfl⟩ := h
      rw [Nat.zero_add]
      exact .directive hkind hi
    · intro h
      cases h with
      | directive hleaf hi =>
        cases hkind.symm.trans hleaf
        exact ⟨_, _, hi, by rw [Nat.zero_add]⟩
      | nested hnested => cases hkind.symm.trans hnested
      | below hnested => cases hkind.symm.trans hnested
  rw [compileField]
  simp only [hkind]
  exact (compileLeaf_reports trail place field shape directives 0 named).congr hrange

/-- The result for fields that are numbered from a place on, if it is right for every type that can
still be entered. -/
theorem compileFields_range (fields : List (FieldSchema n)) (k : Nat)
    (each : ∀ field ∈ fields, ∀ place, Reports family root (Under family trail place field)
      (compileField family fresh (.along trail) field)) :
    Reports family root
      (fun site => ∃ i field, fields[i]? = some field ∧ Under family trail (k + i) field site)
      (compileFields family fresh (.along trail) fields) := by
  induction fields generalizing k with
  | nil =>
    rw [compileFields]
    refine .none ?_
    intro site h
    obtain ⟨_, _, h, -⟩ := h
    cases h
  | cons field rest ih =>
    have hrange : ∀ site, (Under family trail k field site ∨
        ∃ i field, rest[i]? = some field ∧ Under family trail (k + 1 + i) field site) ↔
        ∃ i f, (field :: rest)[i]? = some f ∧ Under family trail (k + i) f site := by
      intro site
      exact exists_place_cons (P := fun i f => Under family trail i f site) field rest k
    have horder : ∀ a b, Under family trail k field a →
        (∃ i field, rest[i]? = some field ∧ Under family trail (k + 1 + i) field b) →
        a.Before b := by
      intro a b ha h
      obtain ⟨i, f, -, hb⟩ := h
      exact ha.before_of_place hb (by omega)
    refine Reports.congr ?_ hrange
    have hfirst := each field List.mem_cons_self k
    rw [compileFields_cons]
    cases hr : compileField family fresh (.along trail) field with
    | error e =>
      rw [hr] at hfirst
      exact hfirst.error_append horder
    | ok entries =>
      rw [hr] at hfirst
      exact hfirst.append (ih (k + 1) fun f hf => each f (List.mem_cons_of_mem _ hf)) horder

/-- **The result for a type at the end of a way** is the result for the sites on the ways that go on
from there. -/
theorem compileFields_reports (named : ∀ type, ∀ field ∈ (family type).fields, field.name ≠ "")
    (hfresh : Fresh root trail fresh) (htrail : ∀ step ∈ trail, step.field.name ≠ "")
    (type : Fin n) :
    Reports family root (Within family trail type)
      (compileFields family fresh (.along trail) (family type).fields) := by
  -- The types that can still be entered get fewer on the way down.
  induction hn : fresh.length using Nat.strongRecOn generalizing fresh trail type with
  | ind m ih =>
    have heach : ∀ field ∈ (family type).fields, ∀ place,
        Reports family root (Under family trail place field)
          (compileField family fresh (.along trail) field) := by
      intro field hfield place
      cases hkind : field.kind with
      | leaf shape directives => exact compileField_leaf htrail hkind
      | nested optional record =>
        refine compileField_nested hfresh htrail hkind fun hmem => ?_
        have hlength := List.length_erase_of_mem hmem
        have hpos := List.length_pos_of_mem hmem
        refine ih (fresh.erase record).length (by omega) (hfresh.enter _) ?_ record rfl
        intro step hstep
        rcases List.mem_append.mp hstep with hstep | hstep
        · exact htrail step hstep
        · cases List.mem_singleton.mp hstep
          exact named type field hfield
    have hfields := compileFields_range (family type).fields 0 heach
    refine hfields.congr fun site => ?_
    simp only [within_iff, Nat.zero_add]

end

end RecordPrivacy
