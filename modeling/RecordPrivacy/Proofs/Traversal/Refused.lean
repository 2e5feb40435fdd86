import RecordPrivacy.Proofs.Traversal.FirstFailure

/-! Traversals that meet nothing but refusals.

Where every element is refused a traversal changes nothing: it gets through if its plans reach no
element, and else fails at the first one that they reach (`traverse_refused`). Which element that is
depends on the frame of the record alone (`FirstReached.congr`). -/
namespace RecordPrivacy

/-- The leaves that the plans reach have no elements: they are empty sequences and mappings. -/
def Bare (plans : List FieldPlan) (record : Record) : Prop :=
  ∀ plan ∈ plans, ∀ leaf, record.resolve? plan.path = some leaf → leaf.elements = []

/-- The `k`-th plan is the first that reaches an element, and an error at that element names the
field. -/
structure FirstReached (plans : List FieldPlan) (record : Record) (k : Nat) (field : String) :
    Prop where
  reached : ∃ plan leaf p, plans[k]? = some plan ∧ record.resolve? plan.path = some leaf ∧
    leaf.ElementAt plan.name 0 p field
  before : Bare (plans.take k) record
  /-- Of entries that are kept in the order of their keys it is the one with the least key. -/
  least : ∀ plan entries, plans[k]? = some plan →
    record.resolve? plan.path = some (.mapping entries) →
    ∃ key, field = plan.name ++ s!"[{key.shown}]" ∧
      ∀ less : Key → Key → Prop, entries.Pairwise (fun a b => less a.1 b.1) →
        ∀ entry ∈ entries, entry.1 = key ∨ less key entry.1

variable {c : Capabilities} {action : Action} {plan first : FieldPlan}
  {plans rest : List FieldPlan} {record other : Record} {failure : Failure} {k : Nat}
  {field : String}

/-! ### Leaves -/

namespace Transform
variable (t : Transform) {leaf : Leaf}

theorem leaf_bare (bare : leaf.elements = []) (supply : Entropy) :
    (t.leaf leaf supply).1 = (leaf, none) := by
  obtain ⟨hshape, hvisit⟩ := t.leaf_visit leaf supply
  rcases ht : t.leaf leaf supply with ⟨⟨leaf', fault⟩, supply'⟩
  rw [ht, bare] at hvisit
  rw [ht] at hshape
  simp only at hshape hvisit ⊢
  generalize hafter : leaf'.elements = after at hvisit
  cases hvisit
  rw [Leaf.ext_elements hshape (hafter.trans bare.symm)]

/-- A leaf whose first element is refused stays as it is. -/
theorem leaf_refused {element : Element} {p : Piece} {rest : List (Element × Piece)}
    (he : leaf.elements = (element, p) :: rest) (refused : t.Answers p (.error failure))
    (supply : Entropy) : (t.leaf leaf supply).1 = (leaf, some (element, failure)) := by
  obtain ⟨hshape, hvisit⟩ := t.leaf_visit leaf supply
  rcases ht : t.leaf leaf supply with ⟨⟨leaf', fault⟩, supply'⟩
  rw [ht, he] at hvisit
  rw [ht] at hshape
  simp only at hshape hvisit ⊢
  generalize hafter : leaf'.elements = after at hvisit
  cases hvisit with
  | stop hp =>
    cases (congrArg Prod.fst hp).symm.trans (refused supply)
    rw [Leaf.ext_elements hshape (hafter.trans he.symm)]
  | step hp _ => cases (congrArg Prod.fst hp).symm.trans (refused supply)

end Transform

/-! ### Plans that reach no element -/

theorem bare_cons : Bare (first :: rest) record ↔
    (∀ leaf, record.resolve? first.path = some leaf → leaf.elements = []) ∧ Bare rest record := by
  simp only [Bare, List.mem_cons, forall_eq_or_imp]

theorem Bare.congr (bare : Bare plans record)
    (frames : ∀ path, (other.at? path).map Content.frame = (record.at? path).map Content.frame) :
    Bare plans other := by
  intro plan hp leaf hl
  obtain ⟨leaf', hl', -, hnames⟩ := Record.exists_leaf_of_frame (frames plan.path).symm hl
  rw [bare plan hp leaf' hl', List.map_nil] at hnames
  exact List.map_eq_nil_iff.mp hnames.symm

/-- A plan without an element to work on leaves the record as it is, whatever comes of it. -/
theorem FieldPlan.run_bare (bare : ∀ leaf, record.resolve? plan.path = some leaf →
    leaf.elements = []) (supply : Entropy) :
    (plan.run c action record supply).1.1 = record := by
  cases hl : record.resolve? plan.path with
  | none => rw [run_skip supply hl]
  | some leaf =>
    cases hb : Transform.bind c action plan.parameter with
    | error e => rw [run_unbound supply hl hb]
    | ok t =>
      rw [run_bound supply hl hb, t.leaf_bare (bare leaf hl)]
      exact Record.replace_of_resolve? hl

theorem traverse_bare (bare : Bare plans record) (supply : Entropy) :
    (traverse c action plans record supply).1.1 = record := by
  induction plans generalizing supply with
  | nil => rfl
  | cons first rest ih =>
    obtain ⟨hfirst, hrest⟩ := bare_cons.mp bare
    have hrun : (first.run c action record supply).1.1 = record := FieldPlan.run_bare hfirst supply
    rw [traverse_cons]
    rcases hr : first.run c action record supply with ⟨⟨mid, outcome⟩, supply₁⟩
    rw [hr] at hrun
    cases hrun
    cases outcome with
    | error e => rfl
    | ok n => exact ih hrest supply₁

/-! ### The first element that is reached -/

/-- The first entry has the least key. -/
theorem Leaf.ElementAt.least {name : String} {entries : List (Key × String)} {p : Piece}
    (h : Leaf.ElementAt name (.mapping entries) 0 p field) :
    ∃ key, field = name ++ s!"[{key.shown}]" ∧
      ∀ less : Key → Key → Prop, entries.Pairwise (fun a b => less a.1 b.1) →
        ∀ entry ∈ entries, entry.1 = key ∨ less key entry.1 := by
  cases h with
  | @entry _ _ key value hfirst =>
    refine ⟨key, rfl, fun less sorted entry hmem => ?_⟩
    cases entries with
    | nil => cases hfirst
    | cons head later =>
      cases hfirst
      rcases List.mem_cons.mp hmem with rfl | hmem
      · exact .inl rfl
      · exact .inr (List.rel_of_pairwise_cons sorted hmem)

namespace FirstReached

theorem of_elementAt {leaf : Leaf} {p : Piece} (hk : plans[k]? = some plan)
    (before : Bare (plans.take k) record) (hl : record.resolve? plan.path = some leaf)
    (hat : leaf.ElementAt plan.name 0 p field) : FirstReached plans record k field := by
  refine ⟨⟨plan, leaf, p, hk, hl, hat⟩, before, fun plan' entries hk' hl' => ?_⟩
  cases hk.symm.trans hk'
  cases hl.symm.trans hl'
  exact hat.least

theorem later (bare : ∀ leaf, record.resolve? first.path = some leaf → leaf.elements = [])
    (h : FirstReached rest record k field) : FirstReached (first :: rest) record (k + 1) field :=
  ⟨h.reached, bare_cons.mpr ⟨bare, h.before⟩, h.least⟩

theorem not_bare (h : FirstReached plans record k field) : ¬ Bare plans record := by
  intro bare
  obtain ⟨plan, leaf, p, hk, hl, hat⟩ := h.reached
  obtain ⟨element, he, -⟩ := Leaf.elementAt_iff.mp hat
  rw [bare plan (List.mem_of_getElem? hk) leaf hl] at he
  cases he

theorem congr (h : FirstReached plans record k field)
    (frames : ∀ path, (other.at? path).map Content.frame = (record.at? path).map Content.frame) :
    FirstReached plans other k field := by
  obtain ⟨plan, leaf, p, hk, hl, hat⟩ := h.reached
  obtain ⟨leaf', hl', -, hnames⟩ := Record.exists_leaf_of_frame (frames plan.path) hl
  obtain ⟨element, he, hfield⟩ := Leaf.elementAt_iff.mp hat
  have hname : (leaf'.elements.map Prod.fst)[0]? = some element := by
    rw [hnames, List.getElem?_map, he, Option.map_some]
  rw [List.getElem?_map, Option.map_eq_some_iff] at hname
  obtain ⟨⟨_, p'⟩, he', rfl⟩ := hname
  exact of_elementAt hk (h.before.congr frames) hl' (Leaf.elementAt_iff.mpr ⟨_, he', hfield⟩)

end FirstReached

/-! ### Refusals -/

/-- Every plan that reaches a leaf is bound to a transform, which refuses every element. -/
def Refusing (c : Capabilities) (action : Action) (plans : List FieldPlan) (record : Record)
    (failure : Failure) : Prop :=
  ∀ plan ∈ plans, ∀ leaf, record.resolve? plan.path = some leaf →
    ∃ t, Transform.bind c action plan.parameter = .ok t ∧
      ∀ e ∈ leaf.elements, t.Answers e.2 (.error failure)

/-- One plan: it has no element, or is refused at its first. -/
theorem FieldPlan.run_refused (refusing : Refusing c action [plan] record failure)
    (supply : Entropy) :
    ((∀ leaf, record.resolve? plan.path = some leaf → leaf.elements = []) ∧
      ∃ n supply', plan.run c action record supply = ((record, .ok n), supply')) ∨
    ∃ leaf p field supply', record.resolve? plan.path = some leaf ∧
      leaf.ElementAt plan.name 0 p field ∧
      plan.run c action record supply =
        ((record, .error ⟨failure.kind, action, field, failure.cause⟩), supply') := by
  cases hl : record.resolve? plan.path with
  | none =>
    refine .inl ⟨fun leaf h => ?_, 0, supply, run_skip supply hl⟩
    cases h
  | some leaf =>
    obtain ⟨t, hbind, hall⟩ := refusing plan List.mem_cons_self leaf hl
    rw [run_bound supply hl hbind]
    cases he : leaf.elements with
    | nil =>
      rw [t.leaf_bare he, Record.replace_of_resolve? hl]
      refine .inl ⟨fun other h => ?_, 1, _, rfl⟩
      cases h
      exact he
    | cons head tail =>
      obtain ⟨element, p⟩ := head
      rw [t.leaf_refused he (hall (element, p) (he ▸ List.mem_cons_self)),
        Record.replace_of_resolve? hl]
      refine .inr ⟨leaf, p, plan.name ++ element.suffix, _, rfl, ?_, rfl⟩
      exact Leaf.elementAt_iff.mpr ⟨element, by rw [he]; rfl, rfl⟩

/-- **A traversal in which everything is refused** changes nothing. It gets through if it reaches no
element, and else it fails at the first one that it reaches. -/
theorem traverse_refused (refusing : Refusing c action plans record failure) (supply : Entropy) :
    (Bare plans record ∧
      ∃ n supply', traverse c action plans record supply = ((record, .ok n), supply')) ∨
    ∃ k field supply', FirstReached plans record k field ∧
      traverse c action plans record supply =
        ((record, .error ⟨failure.kind, action, field, failure.cause⟩), supply') := by
  induction plans generalizing supply with
  | nil =>
    refine .inl ⟨fun plan hp => ?_, 0, supply, rfl⟩
    cases hp
  | cons first rest ih =>
    have hfirst : Refusing c action [first] record failure := fun plan hp =>
      refusing plan (by rw [List.mem_singleton.mp hp]; exact List.mem_cons_self)
    rcases FieldPlan.run_refused hfirst supply with
      ⟨hbare, n, supply₁, hrun⟩ | ⟨leaf, p, field, supply₁, hl, hat, hrun⟩
    · rcases ih (fun plan hp => refusing plan (List.mem_cons_of_mem _ hp)) supply₁ with
        ⟨hrest, m, supply', ht⟩ | ⟨k, field, supply', hreached, ht⟩
      · refine .inl ⟨bare_cons.mpr ⟨hbare, hrest⟩, n + m, supply', ?_⟩
        exact traverse_cons_ok.mpr ⟨record, n, supply₁, m, hrun, ht, rfl⟩
      · refine .inr ⟨k + 1, field, supply', hreached.later hbare, ?_⟩
        rw [traverse_cons, hrun]
        simp only [ht]
        rfl
    · have hnone : Bare ((first :: rest).take 0) record := by
        intro plan hp
        cases hp
      refine .inr ⟨0, field, supply₁, .of_elementAt rfl hnone hl hat, ?_⟩
      rw [traverse_cons, hrun]

end RecordPrivacy
