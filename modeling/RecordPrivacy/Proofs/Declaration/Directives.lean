import RecordPrivacy.Proofs.Declaration.Clauses

/-! What the attributes of a field say.

The lists of all guards are cut at their commas, and so are the parentheses behind each boundary; what
lies between the commas are the entries (`entriesOf`). Clauses that are accepted add the directives that
their entries spell, one by one (`takes_action`, `takes_boundary`), and attributes are heard one after the
other (`Gathered.addAll_ok_iff`). -/
namespace RecordPrivacy.Declaration

/-! ### Entries -/

/-- What lies between commas in the parentheses behind a boundary. -/
structure Entry where
  boundary : String
  content : List Tree

/-- One of the boundary's actions is set to a text. -/
inductive Entry.Spells : Entry → Directive → Prop
  | intro (action : Action) (parameter spelling : String) (joined : Bool) :
      Spells ⟨action.boundary.text,
        [.word action.text, .sign '=' joined, .literal spelling (some parameter)]⟩ ⟨action, parameter⟩

theorem Entry.spells_iff {boundary : Boundary} {content : List Tree} {directive : Directive} :
    Spells ⟨boundary.text, content⟩ directive ↔ directive.action.boundary = boundary ∧
      ∃ joined spelling, content = [.word directive.action.text, .sign '=' joined,
        .literal spelling (some directive.parameter)] := by
  constructor
  · intro h
    generalize hentry : (⟨boundary.text, content⟩ : Entry) = entry at h
    obtain ⟨action, parameter, spelling, joined⟩ := h
    obtain ⟨hboundary, rfl⟩ := Entry.mk.inj hentry
    exact ⟨(Boundary.text_injective hboundary).symm, joined, spelling, rfl⟩
  · intro h
    obtain ⟨rfl, joined, spelling, rfl⟩ := h
    exact .intro directive.action directive.parameter spelling joined

/-- The entries in a clause. -/
def entriesIn : List Tree → List Entry
  | .word boundary :: .group .parenthesis inside :: _ => (clausesOf inside).map (⟨boundary, ·⟩)
  | _ => []

/-- The clauses of an attribute, if it is a guard with a list. -/
def Attribute.clauses : Attribute → List (List Tree)
  | ⟨name, .list inside⟩ => if name = some "guard" then clausesOf inside else []
  | _ => []

/-- The entries of all guards, as they are written one after the other. -/
def entriesOf (attributes : List Attribute) : List Entry :=
  (attributes.flatMap Attribute.clauses).flatMap entriesIn

/-- A boundary with a list in parentheses that is not empty. -/
def Shaped (clause : List Tree) : Prop :=
  ∃ (boundary : Boundary) (inside : List Tree),
    clause = [.word boundary.text, .group .parenthesis inside] ∧ inside ≠ []

/-- The directive of an entry comes behind those found, none of which has its action. -/
def Entry.Adds (found : List Directive) (entry : Entry) (next : List Directive) : Prop :=
  ∃ directive, entry.Spells directive ∧ (∀ other ∈ found, other.action ≠ directive.action) ∧
    next = found ++ [directive]

/-- Entries that are added one by one spell the directives that are found in the end. -/
theorem through_adds_iff {entries : List Entry} {found next : List Directive}
    (distinct : (found.map Directive.action).Nodup) :
    Through Entry.Adds found entries next ↔ ∃ directives,
      List.Forall₂ Entry.Spells entries directives ∧ next = found ++ directives ∧
        (next.map Directive.action).Nodup := by
  induction entries generalizing found with
  | nil =>
    simp only [Through, List.forall₂_nil_left_iff, exists_eq_left, List.append_nil]
    constructor
    · intro h
      exact ⟨h, h ▸ distinct⟩
    · intro h
      exact h.1
  | cons entry entries ih =>
    have hsnoc : ∀ directive : Directive, (∀ other ∈ found, other.action ≠ directive.action) ↔
        ((found ++ [directive]).map Directive.action).Nodup := by
      intro directive
      rw [List.map_append, List.nodup_append]
      simp [distinct]
    constructor
    · intro h
      obtain ⟨mid, ⟨directive, hspells, hnew, rfl⟩, hrest⟩ := h
      obtain ⟨directives, hall, rfl, hnodup⟩ := (ih ((hsnoc directive).mp hnew)).mp hrest
      refine ⟨directive :: directives, .cons hspells hall, ?_, hnodup⟩
      rw [List.append_assoc, List.singleton_append]
    · intro h
      obtain ⟨directives, hall, rfl, hnodup⟩ := h
      cases hall with
      | @cons _ directive _ directives hspells hall =>
        have hsplit : found ++ directive :: directives = (found ++ [directive]) ++ directives := by
          rw [List.append_assoc, List.singleton_append]
        have hfront : ((found ++ [directive]).map Directive.action).Nodup := by
          rw [hsplit, List.map_append] at hnodup
          exact (List.nodup_append.mp hnodup).1
        exact ⟨_, ⟨directive, hspells, (hsnoc directive).mpr hfront, rfl⟩,
          (ih hfront).mpr ⟨directives, hall, hsplit, hnodup⟩⟩

/-! ### Clauses of actions -/

/-- A clause of an action is taken if it is an entry of the boundary. -/
theorem takes_action (boundary : Boundary) :
    Takes Guard.actionBody (addAction boundary) fun found clause next =>
      Entry.Adds found ⟨boundary.text, clause⟩ next where
  sound := by
    intro found next trees name rest clause left? hname hbody hstep
    obtain ⟨action, parameter, hclause, hboundary, hparameter, hnew, rfl⟩ :=
      addAction_ok_iff.mp hstep
    rw [Guard.actionBody.eq_def] at hbody
    split at hbody
    · split at hbody
      · next joined _ spelling text left =>
        cases hbody
        cases hclause
        cases hparameter
        have hspells : Entry.Spells ⟨boundary.text, _⟩ ⟨action, parameter⟩ :=
          Entry.spells_iff.mpr ⟨hboundary, joined, spelling, rfl⟩
        exact ⟨_, left, rfl, Guard.readName_eq_some hname, _, hspells, hnew, rfl⟩
      · cases hbody
        cases hparameter
    · cases hbody
      cases hparameter
  complete := by
    intro found next clause left _ h
    obtain ⟨directive, hspells, hnew, rfl⟩ := h
    obtain ⟨hboundary, joined, spelling, rfl⟩ := Entry.spells_iff.mp hspells
    exact ⟨_, _, _, Guard.readName_word (by cases joined <;> rfl), rfl,
      addAction_ok_iff.mpr ⟨_, _, rfl, hboundary, rfl, hnew, rfl⟩⟩
  unparted := by
    intro found next clause h
    obtain ⟨directive, hspells, -, -⟩ := h
    obtain ⟨-, joined, spelling, rfl⟩ := Entry.spells_iff.mp hspells
    exact ⟨List.cons_ne_nil _ _, by simp [Unparted, Tree.isComma]⟩

/-! ### Clauses of boundaries -/

/-- Within the parentheses behind a boundary the entries are added. -/
theorem actions_ok_iff {boundary : Boundary} {inside : List Tree} {found next : List Directive} :
    (Guard.readClauses Guard.actionBody inside).foldUntil DeclarationError.form (addAction boundary)
        found = .ok next ↔
      inside ≠ [] ∧ Through Entry.Adds found ((clausesOf inside).map (⟨boundary.text, ·⟩)) next := by
  rw [Guard.readClauses_ok_iff (takes_action boundary), through_map]

/-- A clause of a boundary is taken if it is whole, and all of its entries are. -/
theorem takes_boundary : Takes Guard.boundaryBody addBoundary fun found clause next =>
    Shaped clause ∧ Through Entry.Adds found (entriesIn clause) next where
  sound := by
    intro found next trees name rest clause left? hname hbody hstep
    obtain ⟨boundary, hclause, hfold⟩ := addBoundary_ok_iff.mp hstep
    rw [Guard.boundaryBody.eq_def] at hbody
    split at hbody
    · next inside left =>
      cases hbody
      cases hclause
      obtain ⟨hne, hadds⟩ := actions_ok_iff.mp hfold
      exact ⟨_, left, rfl, Guard.readName_eq_some hname, ⟨boundary, inside, rfl, hne⟩, hadds⟩
    · cases hbody
      cases hfold
  complete := by
    intro found next clause left _ h
    obtain ⟨⟨boundary, inside, rfl, hne⟩, hadds⟩ := h
    exact ⟨_, _, _, Guard.readName_word rfl, rfl,
      addBoundary_ok_iff.mpr ⟨boundary, rfl, actions_ok_iff.mpr ⟨hne, hadds⟩⟩⟩
  unparted := by
    intro found next clause h
    obtain ⟨⟨boundary, inside, rfl, -⟩, -⟩ := h
    exact ⟨List.cons_ne_nil _ _, by simp [Unparted, Tree.isComma]⟩

/-! ### Attributes -/

/-- What is gathered once an attribute was heard. -/
inductive Gathered.Hears : Gathered → Attribute → Gathered → Prop
  | other {found : Gathered} {given : Attribute} : given.name ≠ some "guard" →
      Hears found given found
  | bare : Hears ⟨false, []⟩ ⟨some "guard", .bare⟩ ⟨true, []⟩
  | list {found next : List Directive} {inside : List Tree} :
      (∀ clause ∈ clausesOf inside, Shaped clause) →
      Through Entry.Adds found ((clausesOf inside).flatMap entriesIn) next →
      Hears ⟨false, found⟩ ⟨some "guard", .list inside⟩ ⟨false, next⟩

namespace Gathered
variable {found next : Gathered} {attributes : List Attribute}

theorem add_ok_iff {given : Attribute} {guard : Guard BoundaryClause}
    (h : Guard.ofAttribute? Guard.boundaryBody given = some guard) :
    found.add guard = .ok next ↔ found.Hears given next := by
  obtain ⟨name, content⟩ := given
  rw [Guard.ofAttribute?] at h
  by_cases hname : name = some "guard"
  · subst hname
    cases content with
    | bare =>
      cases h
      rw [add_bare_ok]
      constructor
      · intro h
        obtain ⟨rfl, rfl⟩ := h
        exact .bare
      · intro h
        cases h with
        | other hother => exact absurd rfl hother
        | bare => exact ⟨rfl, rfl⟩
    | value =>
      cases h
      constructor
      · intro h
        cases h
      · intro h
        cases h with
        | other hother => exact absurd rfl hother
    | list inside =>
      cases h
      rw [add_list_ok, Guard.list_ok_iff takes_boundary]
      constructor
      · intro h
        obtain ⟨hfound, hnext, hshaped, hadds⟩ := h
        obtain ⟨isNested, directives⟩ := found
        obtain ⟨isNested', directives'⟩ := next
        cases hfound
        cases hnext
        exact .list hshaped hadds
      · intro h
        cases h with
        | other hother => exact absurd rfl hother
        | list hshaped hadds => exact ⟨rfl, rfl, hshaped, hadds⟩
  · rw [if_neg hname] at h
    cases h

theorem other_of_ofAttribute? {given : Attribute}
    (h : Guard.ofAttribute? Guard.boundaryBody given = none) : given.name ≠ some "guard" := by
  intro hname
  obtain ⟨name, content⟩ := given
  cases hname
  cases content <;> cases h

/-- The attributes are heard one after the other. -/
theorem addAll_ok_iff : found.addAll (Guard.ofField attributes) = .ok next ↔
    Through Hears found attributes next := by
  induction attributes generalizing found with
  | nil => simp [Guard.ofField, addAll, Through, eq_comm]
  | cons given rest ih =>
    rw [Guard.ofField, List.filterMap_cons, Through]
    cases hguard : Guard.ofAttribute? Guard.boundaryBody given with
    | none =>
      have hother := other_of_ofAttribute? hguard
      refine ih.trans ⟨fun h => ⟨found, .other hother, h⟩, fun h => ?_⟩
      obtain ⟨mid, hmid, hrest⟩ := h
      cases hmid with
      | other => exact hrest
      | bare => exact absurd rfl hother
      | list => exact absurd rfl hother
    | some guard =>
      simp only [addAll_cons_ok, add_ok_iff hguard]
      exact exists_congr fun mid => and_congr_right fun _ => ih

end Gathered

end RecordPrivacy.Declaration
