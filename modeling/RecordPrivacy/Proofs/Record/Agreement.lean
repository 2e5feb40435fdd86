import RecordPrivacy.Proofs.Plan.Origin
import RecordPrivacy.Proofs.Record.Paths
import RecordPrivacy.Sample.Forms

/-! Records that agree with their types.

A record agrees with its type if every leaf has the shape that its field declares and every nested
record agrees with its own type, where only an optional one may be absent. Traversal knows nothing
of a plan but its path; `resolve?_compiled` says that on records which agree this is enough: the
path of a compiled plan leads to nothing only if one of the optional records that the plan lists is
absent, and else to the leaf that the plan is named for, in the shape that it states. -/
namespace RecordPrivacy
variable {n : Nat} {family : Family n}

mutual

/-- The record has a content for every field of its type, and the content agrees with the field. -/
inductive Record.Agrees (family : Family n) : Fin n → Record → Prop
  | intro {type : Fin n} {record : Record} :
      (∀ field ∈ (family type).fields, (record.content? field.index).isSome) →
      (∀ field ∈ (family type).fields, ∀ content, record.content? field.index = some content →
        Content.Agrees family field.kind content) →
      Record.Agrees family type record

/-- A leaf has the shape of its field. A nested record is there and agrees with its type, or it is
optional and absent. -/
inductive Content.Agrees (family : Family n) : FieldKind n → Content → Prop
  | leaf (leaf : Leaf) (directives : List Directive) :
      Content.Agrees family (.leaf leaf.shape directives) (.leaf leaf)
  | present {optional : Bool} {type : Fin n} {content : Content} {fields : Record} :
      content.inner? = some fields → Record.Agrees family type fields →
      Content.Agrees family (.nested optional type) content
  | absent (type : Fin n) : Content.Agrees family (.nested true type) (.optional none)

end

/-- The leaf that is found by following fields, each of them a field of the record that the one
before it leads into. -/
inductive Record.Follows (family : Family n) : Fin n → Record → List (FieldSchema n) → Leaf → Prop
  | leaf {type : Fin n} {record : Record} {field : FieldSchema n} {directives : List Directive}
      {leaf : Leaf} : field ∈ (family type).fields → field.kind = .leaf leaf.shape directives →
      record.content? field.index = some (.leaf leaf) → Follows family type record [field] leaf
  | nested {type inner : Fin n} {record fields : Record} {field : FieldSchema n} {optional : Bool}
      {content : Content} {rest : List (FieldSchema n)} {leaf : Leaf} :
      field ∈ (family type).fields → field.kind = .nested optional inner →
      record.content? field.index = some content → content.inner? = some fields →
      Follows family inner fields rest leaf → Follows family type record (field :: rest) leaf

/-- The name is made up of those of the fields, set apart by dots, except that no dot follows an
empty name in front of a single other one. -/
def Dotted (fields : List (FieldSchema n)) (name : String) : Prop :=
  name = String.intercalate "." (fields.map (·.name)) ∨
    ∃ outer inner, fields = [outer, inner] ∧ outer.name = "" ∧ name = inner.name

theorem Position.dotted_fields (way : List (Step n)) (field : FieldSchema n) :
    Dotted (way.map Step.field ++ [field]) ((along way).dotted field.name) := by
  cases way with
  | nil =>
    left
    simp [along, dotted]
  | cons first rest =>
    by_cases hempty : String.intercalate "." ((first :: rest).map (·.field.name)) = ""
    · -- A way of two fields or more has a dot in its name.
      right
      cases rest with
      | nil =>
        rw [List.map_cons, List.map_nil, String.intercalate_singleton] at hempty
        exact ⟨first.field, field, rfl, hempty, if_pos (by simpa [along] using hempty)⟩
      | cons second rest =>
        rw [List.map_cons, String.intercalate_cons_of_ne_nil (by simp)] at hempty
        simp at hempty
    · left
      rw [List.map_append, List.map_map, String.intercalate_append_of_ne_nil (by simp) (by simp),
        List.map_singleton, String.intercalate_singleton]
      exact if_neg hempty

/-! ### Paths, step by step -/

namespace Record

/-- The optional record at a place of the path is absent. -/
def AbsentAt (record : Record) (path : List Nat) (i : Nat) : Prop :=
  record.at? (path.take (i + 1)) = some (.optional none)

theorem at?_cons (record : Record) (i : Nat) (rest : List Nat) :
    record.at? (i :: rest) = (record.content? i).bind (·.at? rest) := rfl

/-- Below a record that is there, the path goes on in it. -/
theorem at?_inner {record fields : Record} {content : Content} {i j : Nat} {rest : List Nat}
    (h : record.content? i = some content) (hinner : content.inner? = some fields) :
    record.at? (i :: j :: rest) = at? fields (j :: rest) := by
  rw [at?_cons, h, Option.bind_some, Content.at?, hinner]
  rfl

theorem absentAt_zero {record : Record} {content : Content} {i : Nat} {rest : List Nat}
    (h : record.content? i = some content) :
    record.AbsentAt (i :: rest) 0 ↔ content = .optional none := by
  rw [AbsentAt, List.take_succ_cons, List.take_zero, at?_cons, h, Option.bind_some, Content.at?,
    Option.some.injEq]

theorem absentAt_succ {record fields : Record} {content : Content} {i : Nat} {rest : List Nat}
    (h : record.content? i = some content) (hinner : content.inner? = some fields)
    (hrest : rest ≠ []) (k : Nat) :
    record.AbsentAt (i :: rest) (k + 1) ↔ AbsentAt fields rest k := by
  obtain ⟨j, rest, rfl⟩ := List.exists_cons_of_ne_nil hrest
  rw [AbsentAt, AbsentAt, List.take_succ_cons, List.take_succ_cons, at?_inner h hinner]

end Record

/-! ### Ways through a record -/

theorem mem_optionalPlaces {way : List (Step n)} {i : Nat} :
    i ∈ optionalPlaces way ↔ ∃ step, way[i]? = some step ∧ step.optional = true := by
  rw [optionalPlaces, List.mem_filter, List.mem_range, Option.any_eq_true]
  constructor
  · intro h
    exact h.2
  · intro h
    have hstep := h
    obtain ⟨step, hstep, -⟩ := hstep
    exact ⟨(List.getElem?_eq_some_iff.mp hstep).1, h⟩

theorem Record.agrees_iff {type : Fin n} {record : Record} :
    record.Agrees family type ↔ ∀ field ∈ (family type).fields,
      ∃ content, record.content? field.index = some content ∧
        content.Agrees family field.kind := by
  constructor
  · intro h field hfield
    cases h with
    | intro hsome hagrees =>
      obtain ⟨content, hcontent⟩ := Option.isSome_iff_exists.mp (hsome field hfield)
      exact ⟨content, hcontent, hagrees field hfield content hcontent⟩
  · intro h
    refine .intro (fun field hfield => ?_) fun field hfield content hcontent => ?_
    · obtain ⟨content, hcontent, -⟩ := h field hfield
      rw [hcontent]
      rfl
    · obtain ⟨other, hother, hagrees⟩ := h field hfield
      cases hcontent.symm.trans hother
      exact hagrees

/-- A way through a record ends at its leaf, or before it at an optional record that is absent. -/
theorem Record.Agrees.along {type last : Fin n} {record : Record} {way : List (Step n)}
    {field : FieldSchema n} {shape : Shape} {directives : List Directive}
    (agrees : record.Agrees family type) (hway : Way family type way last)
    (hfield : field ∈ (family last).fields) (hkind : field.kind = .leaf shape directives) :
    (∃ i ∈ optionalPlaces way,
        record.AbsentAt (way.map (·.field.index) ++ [field.index]) i ∧
        record.resolve? (way.map (·.field.index) ++ [field.index]) = none) ∨
      ∃ leaf, record.at? (way.map (·.field.index) ++ [field.index]) = some (.leaf leaf) ∧
        leaf.shape = shape ∧ record.Follows family type (way.map Step.field ++ [field]) leaf ∧
        ∀ i < way.length, ¬ record.AbsentAt (way.map (·.field.index) ++ [field.index]) i := by
  induction hway generalizing record with
  | nil =>
    obtain ⟨content, hcontent, hagrees⟩ := Record.agrees_iff.mp agrees field hfield
    rw [hkind] at hagrees
    cases hagrees with
    | leaf leaf directives =>
      refine .inr ⟨leaf, ?_, rfl, .leaf hfield hkind hcontent, fun i hi => absurd hi (by simp)⟩
      rw [List.map_nil, List.nil_append, Record.at?_cons, hcontent]
      rfl
  | @cons type last step way hstep hway ih =>
    have hmem := List.mem_of_getElem? hstep.declared
    have hrest : way.map (·.field.index) ++ [field.index] ≠ [] := by simp
    obtain ⟨content, hcontent, hagrees⟩ := Record.agrees_iff.mp agrees step.field hmem
    rw [List.map_cons, List.cons_append, List.map_cons, List.cons_append]
    generalize hnested : step.field.kind = kind at hagrees
    rw [hstep.nested] at hnested
    cases hagrees with
    | leaf => cases hnested
    | absent =>
      obtain ⟨hoptional, -⟩ := FieldKind.nested.inj hnested
      refine .inl ⟨0, mem_optionalPlaces.mpr ⟨step, rfl, hoptional⟩,
        (Record.absentAt_zero hcontent).mpr rfl, ?_⟩
      obtain ⟨j, rest, hrest⟩ := List.exists_cons_of_ne_nil hrest
      rw [Record.resolve?_eq, hrest]
      simp [Content.at?, Content.inner?, hcontent]
    | @present _ _ _ fields hinner hagrees =>
      obtain ⟨-, rfl⟩ := FieldKind.nested.inj hnested
      rcases ih hagrees hfield with
        ⟨i, hi, habsent, hnone⟩ | ⟨leaf, hleaf, hshape, hfollows, hthere⟩
      · obtain ⟨other, hother, hoptional⟩ := mem_optionalPlaces.mp hi
        refine .inl ⟨i + 1, mem_optionalPlaces.mpr ⟨other, hother, hoptional⟩,
          (Record.absentAt_succ hcontent hinner hrest i).mpr habsent, ?_⟩
        obtain ⟨j, rest, hrest⟩ := List.exists_cons_of_ne_nil hrest
        rw [hrest] at hnone ⊢
        rw [Record.resolve?_eq] at hnone ⊢
        rw [← hnone]
        exact congrArg (·.bind Content.leaf?) (Record.at?_inner hcontent hinner)
      · refine .inr ⟨leaf, ?_, hshape, .nested hmem hstep.nested hcontent hinner hfollows, ?_⟩
        · obtain ⟨j, rest, hrest⟩ := List.exists_cons_of_ne_nil hrest
          rw [hrest] at hleaf ⊢
          rw [Record.at?_inner hcontent hinner, hleaf]
        · intro i hi
          cases i with
          | zero =>
            rw [Record.absentAt_zero hcontent]
            intro h
            rw [h] at hinner
            cases hinner
          | succ i =>
            rw [Record.absentAt_succ hcontent hinner hrest]
            exact hthere i (by simpa using hi)

/-! ### Compiled plans -/

/-- **Compiled plans fit the records that agree with the type.** A plan leads to nothing just if one
of the optional records on its way is absent. Else it leads to a leaf of the shape it states, which
is the one found by following the fields that it is named for. -/
theorem resolve?_compiled {root : Fin n} {plans : PlanSet} {record : Record}
    (compiled : PlanSet.compile family root = .ok plans) (agrees : record.Agrees family root)
    (action : Action) : ∀ plan ∈ plans.forAction action,
      (record.resolve? plan.path = none ↔
        ∃ i ∈ plan.optionalSteps, record.AbsentAt plan.path i) ∧
      ((∀ i ∈ plan.optionalSteps, ¬ record.AbsentAt plan.path i) →
        ∃ leaf fields, record.resolve? plan.path = some leaf ∧
          record.at? plan.path = some (.leaf leaf) ∧ leaf.shape = plan.shape ∧
          record.Follows family root fields leaf ∧ plan.path = fields.map (·.index) ∧
          Dotted fields plan.name) := by
  intro plan hplan
  obtain ⟨way, place, field, shape, rank, text, ⟨last, hway, hat⟩, -, hsite⟩ :=
    exists_directive_of_mem compiled hplan
  cases hat with
  | directive hfield hkind hrank =>
    have hpath : plan.path = way.map (·.field.index) ++ [field.index] := by rw [hsite]; rfl
    have hsteps : plan.optionalSteps = optionalPlaces way := by rw [hsite]; rfl
    have hshape : plan.shape = shape := by rw [hsite]; rfl
    have hname : plan.name = (Position.along way).dotted field.name := by rw [hsite]; rfl
    rw [hpath, hsteps, hshape, hname]
    have hway : Way family root way last := hway
    rcases agrees.along hway (List.mem_of_getElem? hfield) hkind with
      ⟨i, hi, habsent, hnone⟩ | ⟨leaf, hleaf, hleafShape, hfollows, hthere⟩
    · exact ⟨⟨fun _ => ⟨i, hi, habsent⟩, fun _ => hnone⟩, fun h => absurd habsent (h i hi)⟩
    · have hsome := Record.resolve?_eq_some_iff.mpr hleaf
      refine ⟨⟨fun h => ?_, fun h => ?_⟩, fun _ => ?_⟩
      · rw [hsome] at h
        cases h
      · obtain ⟨i, hi, habsent⟩ := h
        obtain ⟨step, hstep, -⟩ := mem_optionalPlaces.mp hi
        exact absurd habsent (hthere i (List.getElem?_eq_some_iff.mp hstep).1)
      · exact ⟨leaf, _, hsome, hleaf, hleafShape, hfollows, by simp,
          Position.dotted_fields way field⟩

namespace Sample

theorem tags_agree (items : List String) :
    Record.Agrees formFamily 1 [(0, .leaf (.sequence items))] :=
  Record.agrees_iff.mpr <| List.forall_mem_singleton.mpr
    ⟨_, rfl, .leaf (.sequence items) formDirectives⟩

theorem form_agrees (name first second note : String) :
    (form name first second note).Agrees formFamily formRoot := by
  refine Record.agrees_iff.mpr fun field hfield => ?_
  simp only [formFamily, formRoot, List.mem_cons, List.not_mem_nil, or_false] at hfield
  rcases hfield with rfl | rfl | rfl | rfl
  · exact ⟨_, rfl, .leaf (.text name) formDirectives⟩
  · exact ⟨_, rfl, .present rfl (tags_agree [first, second])⟩
  · exact ⟨_, rfl, .absent 1⟩
  · exact ⟨_, rfl, .leaf (.mapping [(.text "a", note)]) formDirectives⟩

end Sample

open Sample in
/-- Of the two records with tags one is absent. -/
theorem form_tags_resolved :
    (form "Ada" "red" "green" "late").resolve? [2, 0] = none ∧
      ∃ leaf fields, (form "Ada" "red" "green" "late").resolve? [1, 0] = some leaf ∧
        leaf.shape = .sequence ∧
        (form "Ada" "red" "green" "late").Follows formFamily formRoot fields leaf ∧
        Dotted fields "more.tags" := by
  have hall := resolve?_compiled (show PlanSet.compile formFamily formRoot = .ok formPlanSet by cbv)
    (form_agrees "Ada" "red" "green" "late") .mask
  have habsent := (hall ⟨[2, 0], [0], "rest.tags", .masker .name, .sequence⟩ (by decide)).1
  have hpresent := (hall ⟨[1, 0], [0], "more.tags", .masker .name, .sequence⟩ (by decide)).2
  refine ⟨habsent.mpr ⟨0, List.mem_singleton_self 0, rfl⟩, ?_⟩
  obtain ⟨leaf, fields, hleaf, -, hshape, hfollows, -, hname⟩ := hpresent fun i hi h => by
    obtain rfl := List.mem_singleton.mp hi
    cases h
  exact ⟨leaf, fields, hleaf, hshape, hfollows, hname⟩

end RecordPrivacy
