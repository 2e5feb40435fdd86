import RecordPrivacy.Proofs.Plan.Distinct

/-! What plans are called.

The way to a leaf is kept in three lists, each of which grows by itself: the indices of fields, which make
up the path of a plan, their names, which make up its name with dots between them, and the places of
records that may be absent. Where no name has a dot, the name of a plan falls apart into the names on the
way (`splitOn_name`). Names and paths are then two spellings of one way, and tell the same leaves apart
(`names_identify`). -/
namespace RecordPrivacy
variable {n : Nat} {family : Family n} {root : Fin n}

/-- The fields of a type have names without a dot, and are told apart by their names and by their
indices. -/
structure Schema.Named (schema : Schema n) : Prop where
  nonempty : ∀ field ∈ schema.fields, field.name ≠ ""
  dotless : ∀ field ∈ schema.fields, '.' ∉ field.name.toList
  names : (schema.fields.map FieldSchema.name).Nodup
  indices : (schema.fields.map FieldSchema.index).Nodup

/-- The fields of a root and of the records nested in it are named in this way. -/
def Family.Named (family : Family n) (root : Fin n) : Prop :=
  ∀ way last, Way family root way last → (family last).Named

theorem Family.Named.step {type : Fin n} (named : family.Named type) {step : Step n}
    (hstep : step.Of (family type).fields) : family.Named step.record :=
  fun _ _ hway => named _ _ (.cons hstep hway)

/-- The names on the way to a field, and its own. -/
def namesTo (way : List (Step n)) (field : FieldSchema n) : List String :=
  way.map (·.field.name) ++ [field.name]

section
variable {type last : Fin n} {way : List (Step n)} {place : Nat} {field : FieldSchema n}

theorem Family.Named.dotless (named : family.Named type) (hway : Way family type way last)
    (hfield : (family last).fields[place]? = some field) :
    ∀ name ∈ namesTo way field, name ≠ "" ∧ '.' ∉ name.toList := by
  induction hway with
  | nil =>
    have hmem := List.mem_of_getElem? hfield
    have hnamed := named _ _ .nil
    intro name hname
    rw [List.mem_singleton.mp hname]
    exact ⟨hnamed.nonempty _ hmem, hnamed.dotless _ hmem⟩
  | cons hstep _ ih =>
    have hmem := List.mem_of_getElem? hstep.declared
    have hnamed := named _ _ .nil
    exact List.forall_mem_cons.mpr
      ⟨⟨hnamed.nonempty _ hmem, hnamed.dotless _ hmem⟩, ih (named.step hstep) hfield⟩

/-! ### Names -/

theorem name_along (named : family.Named type) (hway : Way family type way last)
    (hfield : (family last).fields[place]? = some field) :
    (Position.along way).dotted field.name = String.intercalate "." (namesTo way field) := by
  refine Position.dotted_along way field.name fun step hstep => ?_
  exact (named.dotless hway hfield _
    (List.mem_append_left _ (List.mem_map_of_mem hstep))).1

/-- The parts between the dots of a name are the names on the way. -/
theorem splitOn_name (named : family.Named type) (hway : Way family type way last)
    (hfield : (family last).fields[place]? = some field) :
    ((Position.along way).dotted field.name).toList.splitOn '.' =
      (namesTo way field).map String.toList := by
  rw [name_along named hway hfield, String.toList_intercalate]
  refine List.splitOn_intercalate '.' ?_ (by simp [namesTo])
  intro part hpart
  obtain ⟨name, hname, rfl⟩ := List.mem_map.mp hpart
  exact (named.dotless hway hfield name hname).2

end

/-! ### Places -/

theorem optionalPlaces_sorted (way : List (Step n)) : (optionalPlaces way).Pairwise (· < ·) :=
  List.pairwise_lt_range.filter _

theorem lt_of_mem_optionalPlaces {way : List (Step n)} {i : Nat} (h : i ∈ optionalPlaces way) :
    i < way.length :=
  List.mem_range.mp (List.mem_of_mem_filter h)

/-! ### Plans -/

variable {plans : PlanSet} {action action' : Action} {plan plan' : FieldPlan}

/-- A plan is that of a field at the end of a way. -/
theorem exists_field_of_mem (h : PlanSet.compile family root = .ok plans)
    (hplan : plan ∈ plans.forAction action) :
    ∃ (way : List (Step n)) (last : Fin n) (place : Nat) (field : FieldSchema n),
      Way family root way last ∧ (family last).fields[place]? = some field ∧
      plan = (Position.along way).plan field plan.shape plan.parameter := by
  obtain ⟨way, place, field, shape, rank, text, ⟨last, hway, hat⟩, -, hform⟩ :=
    exists_directive_of_mem h hplan
  cases hat with
  | directive hfield =>
    refine ⟨way, last, place, field, hway, hfield, ?_⟩
    rw [hform]
    rfl

/-- **A name identifies a field.** Where fields of one record are told apart by their names, in which
there is no dot, and by their indices, two plans of a root, of whatever actions, have one name just if
they have one path. A name has as many parts as the path has places, and the places of records that may
be absent go up and come before the last. -/
theorem PlanSet.names_identify (named : family.Named root)
    (h : PlanSet.compile family root = .ok plans) :
    (∀ action action' plan plan', plan ∈ plans.forAction action →
      plan' ∈ plans.forAction action' → (plan.name = plan'.name ↔ plan.path = plan'.path)) ∧
    ∀ action, ∀ plan ∈ plans.forAction action,
      (plan.name.toList.splitOn '.').length = plan.path.length ∧
      plan.optionalSteps.Pairwise (· < ·) ∧ ∀ i ∈ plan.optionalSteps, i < plan.path.length - 1 := by
  refine ⟨fun action action' plan plan' hplan hplan' => ?same, fun action plan hplan => ?parts⟩
  case same =>
    obtain ⟨way, last, place, field, hway, hfield, hform⟩ := exists_field_of_mem h hplan
    obtain ⟨way', last', place', field', hway', hfield', hform'⟩ := exists_field_of_mem h hplan'
    rw [hform, hform']
    constructor
    · intro hname
      have hnames : namesTo way field = namesTo way' field' := by
        refine List.map_injective_iff.mpr (fun _ _ => String.toList_inj.mp) ?_
        rw [← splitOn_name named hway hfield, ← splitOn_name named hway' hfield']
        exact congrArg (fun name : String => name.toList.splitOn '.') hname
      obtain ⟨rfl, -, rfl⟩ :=
        way_eq_of_keys (fun way last hway => (named way last hway).names) hway hway' hfield hfield' hnames
      rfl
    · intro hpath
      obtain ⟨rfl, -, rfl⟩ :=
        way_eq_of_keys (fun way last hway => (named way last hway).indices) hway hway' hfield hfield'
          hpath
      rfl
  case parts =>
    obtain ⟨way, last, place, field, hway, hfield, hform⟩ := exists_field_of_mem h hplan
    have hlength : ((Position.along way).plan field plan.shape plan.parameter).path.length =
        way.length + 1 := by simp [Position.plan, Position.along]
    rw [hform, hlength, Nat.add_sub_cancel]
    refine ⟨?_, optionalPlaces_sorted way, fun i => lt_of_mem_optionalPlaces⟩
    rw [Position.plan, splitOn_name named hway hfield]
    simp [namesTo]

open Sample in
/-- The tags of a form, of which it has two, are told apart. -/
theorem PlanSet.form_named :
    (formFamily.Named formRoot ∧ PlanSet.compile formFamily formRoot = .ok formPlanSet) ∧
      ∀ action action' plan plan', plan ∈ formPlanSet.forAction action →
        plan' ∈ formPlanSet.forAction action' → (plan.name = plan'.name ↔ plan.path = plan'.path) := by
  have hnamed : formFamily.Named formRoot := by
    intro _ type _
    match type with
    | 0 => exact ⟨by decide, by decide, by decide, by decide⟩
    | 1 => exact ⟨by decide, by decide, by decide, by decide⟩
  have hcompile : PlanSet.compile formFamily formRoot = .ok formPlanSet := by cbv
  exact ⟨⟨hnamed, hcompile⟩, (names_identify hnamed hcompile).1⟩

end RecordPrivacy
