import RecordPrivacy.Declaration.Outline
import RecordPrivacy.Proofs.Declaration.Strategy
import RecordPrivacy.Sample.Person

/-! The two halves of an outline.

A record is described by its schema and reached through its arms, and nothing but agreement of the
two keeps a boundary from passing a field by. `Outline.halves_agree` says that they agree: entries
and arms go together one by one, each pair counts the declared field that it is about, and the arm
yields what the entry promises. -/
namespace RecordPrivacy.Declaration

/-! ### Fields at their places -/

/-- A field at its place among the declared ones, with the strategy that its attributes ask for. -/
structure PlacedField.At (fields : List DeclaredField) (p : PlacedField) : Prop where
  declared : fields[p.index]? = some p.field
  fits : p.strategy.Fits p.field

namespace PlacedField
variable {fields : List DeclaredField} {placed : List PlacedField} {k : Nat} {p : PlacedField}

theorem ofFields_cons_ok {field : DeclaredField} {rest : List DeclaredField}
    (h : ofFields k (field :: rest) = .ok placed) :
    ∃ strategy later, Strategy.ofAttributes field.attributes = .ok strategy ∧
      ofFields (k + 1) rest = .ok later ∧ placed = ⟨k, field, strategy⟩ :: later := by
  rw [ofFields] at h
  cases hstrategy : Strategy.ofAttributes field.attributes with
  | error e =>
    rw [hstrategy] at h
    cases h
  | ok strategy =>
    rw [hstrategy] at h
    cases hlater : ofFields (k + 1) rest with
    | error e =>
      rw [hlater] at h
      cases h
    | ok later =>
      rw [hlater] at h
      cases h
      exact ⟨strategy, later, rfl, rfl, rfl⟩

/-- Fields are numbered one by one from where the numbering starts. -/
theorem index_ofFields (h : ofFields k fields = .ok placed) :
    placed.map PlacedField.index = List.range' k fields.length := by
  induction fields generalizing k placed with
  | nil =>
    cases h
    rfl
  | cons field rest ih =>
    obtain ⟨strategy, later, -, hlater, rfl⟩ := ofFields_cons_ok h
    rw [List.map_cons, ih hlater, List.length_cons, List.range'_succ]

theorem field_ofFields (h : ofFields k fields = .ok placed) :
    placed.map PlacedField.field = fields := by
  induction fields generalizing k placed with
  | nil =>
    cases h
    rfl
  | cons field rest ih =>
    obtain ⟨strategy, later, -, hlater, rfl⟩ := ofFields_cons_ok h
    rw [List.map_cons, ih hlater]

theorem fits_ofFields (h : ofFields k fields = .ok placed) (hp : p ∈ placed) :
    p.strategy.Fits p.field := by
  induction fields generalizing k placed with
  | nil =>
    cases h
    cases hp
  | cons field rest ih =>
    obtain ⟨strategy, later, hstrategy, hlater, rfl⟩ := ofFields_cons_ok h
    rcases List.mem_cons.mp hp with rfl | hp
    · exact Strategy.fits_of_ofAttributes hstrategy
    · exact ih hlater hp

/-- Every declared field has its place. -/
theorem exists_placed (h : ofFields 0 fields = .ok placed) {i : Nat} {field : DeclaredField}
    (hfield : fields[i]? = some field) : ∃ p ∈ placed, p.index = i ∧ p.field = field := by
  have hindex := congrArg (·[i]?) (index_ofFields h)
  have hsame := congrArg (·[i]?) (field_ofFields h)
  obtain ⟨hlt, -⟩ := List.getElem?_eq_some_iff.mp hfield
  simp only [List.getElem?_map, hfield, List.getElem?_range' hlt] at hindex hsame
  obtain ⟨p, hp, hsame⟩ := Option.map_eq_some_iff.mp hsame
  rw [hp, Option.map_some, Option.some.injEq] at hindex
  exact ⟨p, List.mem_of_getElem? hp, by omega, hsame⟩

theorem at_of_mem (h : ofFields 0 fields = .ok placed) (hp : p ∈ placed) : p.At fields := by
  refine ⟨?_, fits_ofFields h hp⟩
  obtain ⟨i, hi⟩ := List.mem_iff_getElem?.mp hp
  have hindex := congrArg (·[i]?) (index_ofFields h)
  have hsame := congrArg (·[i]?) (field_ofFields h)
  simp only [List.getElem?_map, hi, Option.map_some] at hindex hsame
  obtain ⟨hlt, hindex⟩ := List.getElem?_eq_some_iff.mp hindex.symm
  rw [List.getElem_range'] at hindex
  obtain rfl : p.index = i := by omega
  exact hsame.symm

theorem pairwise_index (h : ofFields 0 fields = .ok placed) :
    placed.Pairwise fun p q => p.index < q.index := by
  rw [← List.pairwise_map (f := PlacedField.index) (R := (· < ·)), index_ofFields h]
  exact List.pairwise_lt_range'

end PlacedField

/-! ### What there is of a field -/

/-- Boundaries touch the field: one of its guards stands alone, or it has directives and a type that
can be transformed. -/
def DeclaredField.Touched (field : DeclaredField) : Prop :=
  field.Bare ∨ field.Directed ∧ field.type.leafShape?.isSome

/-- An entry and an arm that are about the same field and agree on it; the arm yields, in the
outline, what the entry says. -/
inductive Outline.Agree (o : Outline) (fields : List DeclaredField) : SchemaEntry → AccessArm → Prop
  | leaf {index : Nat} {field : DeclaredField} {shape : Shape} {directives : List Directive} :
      fields[index]? = some field → field.type.leafShape? = some shape →
      (∀ holds, o.slot? index holds = some (.leaf shape)) →
      Agree o fields ⟨index, field.name, .leaf shape directives⟩ ⟨index, field.name, .leaf shape⟩
  | nested {index : Nat} {field : DeclaredField} {holding : Holding} {record : TypeExpr} :
      fields[index]? = some field → field.type.holding = (holding, record) →
      o.slot? index true = some .record →
      o.slot? index false = some (if holding.isOptional then .absent else .record) →
      Agree o fields ⟨index, field.name, .nested holding.isOptional record⟩
        ⟨index, field.name, .nested holding⟩

namespace PlacedField
variable {fields : List DeclaredField} {placed : List PlacedField} {p : PlacedField}

theorem index_of_entry {entry : SchemaEntry} (h : p.entry? = some entry) :
    entry.index = p.index := by
  unfold entry? at h
  cases hstrategy : p.strategy with
  | untouched =>
    rw [hstrategy] at h
    cases h
  | nested =>
    rw [hstrategy] at h
    cases h
    rfl
  | directives directives =>
    rw [hstrategy] at h
    obtain ⟨shape, -, rfl⟩ := Option.map_eq_some_iff.mp h
    rfl

theorem index_of_arm? {arm : AccessArm} (h : p.arm? = some arm) : arm.index = p.index := by
  rw [arm?] at h
  cases hstrategy : p.strategy with
  | untouched =>
    rw [hstrategy] at h
    cases h
  | nested =>
    rw [hstrategy] at h
    cases h
    rfl
  | directives directives =>
    rw [hstrategy] at h
    obtain ⟨shape, -, rfl⟩ := Option.map_eq_some_iff.mp h
    rfl

/-- There is an arm for a field just if there is an entry. -/
theorem isSome_arm? (p : PlacedField) : p.arm?.isSome = p.entry?.isSome := by
  rw [arm?, entry?]
  cases p.strategy with
  | untouched => rfl
  | nested => rfl
  | directives directives => rw [Option.isSome_map, Option.isSome_map]

/-- There is an entry for a field just if boundaries touch it. -/
theorem isSome_entry?_iff (placedAt : p.At fields) : p.entry?.isSome ↔ p.field.Touched := by
  have hfits := placedAt.fits
  unfold entry? DeclaredField.Touched
  cases hstrategy : p.strategy with
  | untouched =>
    rw [hstrategy] at hfits
    obtain ⟨hbare, hdirected⟩ := hfits
    constructor
    · intro h
      cases h
    · intro h
      rcases h with h | ⟨h, -⟩
      · exact absurd h hbare
      · exact absurd h hdirected
  | nested =>
    rw [hstrategy] at hfits
    exact ⟨fun _ => .inl hfits, fun _ => rfl⟩
  | directives directives =>
    rw [hstrategy] at hfits
    obtain ⟨hbare, hdirected⟩ := hfits
    rw [Option.isSome_map]
    constructor
    · intro h
      exact .inr ⟨hdirected, h⟩
    · intro h
      rcases h with h | ⟨-, h⟩
      · exact absurd h hbare
      · exact h

/-- What is made of fields in order comes in the order of their indices. -/
theorem pairwise_filterMap_index {α : Type} {f : PlacedField → Option α} {index : α → Nat}
    (own : ∀ p a, f p = some a → index a = p.index) (h : ofFields 0 fields = .ok placed) :
    (placed.filterMap f).Pairwise fun a b => index a < index b := by
  refine List.pairwise_filterMap.mpr ((pairwise_index h).imp ?_)
  intro p q hlt a ha b hb
  rw [own p a ha, own q b hb]
  exact hlt

/-- If the arm of a field decides what the outline yields at its index, entry and arm agree. -/
theorem agree (placedAt : p.At fields) {o : Outline} {entry : SchemaEntry} {arm : AccessArm}
    (hentry : p.entry? = some entry) (harm : p.arm? = some arm)
    (hslot : ∀ holds, o.slot? arm.index holds = some (arm.reach.slot holds)) :
    o.Agree fields entry arm := by
  unfold entry? at hentry
  rw [arm?] at harm
  cases hstrategy : p.strategy with
  | untouched =>
    rw [hstrategy] at hentry
    cases hentry
  | nested =>
    rcases hholding : p.field.type.holding with ⟨holding, record⟩
    simp only [hstrategy, hholding, Option.some.injEq] at hentry harm
    subst hentry harm
    refine .nested placedAt.declared hholding ?_ ?_
    · rw [hslot, Reach.slot, Bool.not_true, Bool.and_false]
      rfl
    · rw [hslot, Reach.slot, Bool.not_false, Bool.and_true]
  | directives directives =>
    rw [hstrategy] at hentry harm
    cases hshape : p.field.type.leafShape? with
    | none =>
      rw [hshape] at hentry
      cases hentry
    | some shape =>
      rw [hshape] at hentry harm
      cases hentry
      cases harm
      exact .leaf placedAt.declared hshape hslot

end PlacedField

/-! ### All fields -/

theorem forall₂_filterMap {α β γ : Type} {f : α → Option β} {g : α → Option γ}
    {R : β → γ → Prop} {l : List α}
    (h : ∀ a ∈ l, (f a = none ∧ g a = none) ∨ ∃ b c, f a = some b ∧ g a = some c ∧ R b c) :
    List.Forall₂ R (l.filterMap f) (l.filterMap g) := by
  induction l with
  | nil => exact .nil
  | cons a l ih =>
    have hrest := ih fun a ha => h a (List.mem_cons_of_mem _ ha)
    obtain ⟨hf, hg⟩ | ⟨b, c, hf, hg, hr⟩ := h a List.mem_cons_self
    · rw [List.filterMap_cons_none hf, List.filterMap_cons_none hg]
      exact hrest
    · rw [List.filterMap_cons_some hf, List.filterMap_cons_some hg]
      exact .cons hr hrest

namespace Outline

/-- An outline is made of overrides that are accepted and of fields at their places. -/
theorem ofItem_ok {library : String} {item : Item} {o : Outline} (h : ofItem library item = .ok o) :
    ∃ overrides fields placed, overridesOf item.attributes = .ok overrides ∧
      item.body = .record fields ∧ PlacedField.ofFields 0 fields = .ok placed ∧
      o = ofFields library item overrides placed := by
  rw [ofItem] at h
  cases hoverrides : overridesOf item.attributes with
  | error e => simp [hoverrides] at h
  | ok overrides =>
    cases hbody : item.body with
    | enumeration => simp [hoverrides, hbody] at h
    | union => simp [hoverrides, hbody] at h
    | record fields =>
      cases hplaced : PlacedField.ofFields 0 fields with
      | error e => simp [hoverrides, hbody, hplaced] at h
      | ok placed =>
        simp only [hoverrides, hbody, hplaced, Except.ok.injEq] at h
        exact ⟨overrides, fields, placed, rfl, rfl, hplaced, h.symm⟩

/-- Of arms in the order of their indices each is the one that is found at its index. -/
theorem find?_of_pairwise {arms : List AccessArm}
    (sorted : arms.Pairwise fun a b => a.index < b.index) {arm : AccessArm} (harm : arm ∈ arms) :
    arms.find? (·.index = arm.index) = some arm := by
  induction arms with
  | nil => cases harm
  | cons first rest ih =>
    obtain ⟨hfirst, hrest⟩ := List.pairwise_cons.mp sorted
    rcases List.mem_cons.mp harm with rfl | harm
    · exact List.find?_cons_of_pos (decide_eq_true rfl)
    · have hne : first.index ≠ arm.index := Nat.ne_of_lt (hfirst arm harm)
      rw [List.find?_cons, decide_eq_false hne]
      exact ih hrest harm

/-- An outline whose halves agree on the declared fields. -/
structure Consistent (o : Outline) (fields : List DeclaredField) : Prop where
  /-- Entries and arms go together one by one. -/
  paired : List.Forall₂ (o.Agree fields) o.entries o.arms
  sorted : (o.entries.map SchemaEntry.index).Pairwise (· < ·)
  touched : ∀ index, index ∈ o.entries.map SchemaEntry.index ↔
    ∃ field, fields[index]? = some field ∧ field.Touched
  elsewhere : ∀ index, index ∉ o.entries.map SchemaEntry.index →
    ∀ holds, o.slot? index holds = none

/-- **The halves of an outline agree**, whatever fields are accepted. The entries of the schema and
the arms go together one by one, in the order of their indices. An index is the place of the field
in the declaration; it occurs just if boundaries touch the field, and at every other index the
record yields nothing. -/
theorem halves_agree {fields : List DeclaredField} {placed : List PlacedField}
    (accepted : PlacedField.ofFields 0 fields = .ok placed) (library : String) (item : Item)
    (overrides : List Action) : (ofFields library item overrides placed).Consistent fields := by
  have hat : ∀ p ∈ placed, p.At fields := fun p hp => PlacedField.at_of_mem accepted hp
  have harms : (placed.filterMap PlacedField.arm?).Pairwise fun a b => a.index < b.index :=
    PlacedField.pairwise_filterMap_index (fun _ _ => PlacedField.index_of_arm?) accepted
  have hentries : (placed.filterMap PlacedField.entry?).Pairwise fun a b => a.index < b.index :=
    PlacedField.pairwise_filterMap_index (fun _ _ => PlacedField.index_of_entry) accepted
  have hindex : ∀ index, index ∈ (placed.filterMap PlacedField.entry?).map SchemaEntry.index ↔
      ∃ p ∈ placed, p.index = index ∧ p.entry?.isSome := by
    intro index
    constructor
    · intro h
      obtain ⟨entry, hentry, rfl⟩ := List.mem_map.mp h
      obtain ⟨p, hp, hentry⟩ := List.mem_filterMap.mp hentry
      exact ⟨p, hp, (PlacedField.index_of_entry hentry).symm, Option.isSome_of_eq_some hentry⟩
    · intro h
      obtain ⟨p, hp, rfl, h⟩ := h
      obtain ⟨entry, hentry⟩ := Option.isSome_iff_exists.mp h
      rw [← PlacedField.index_of_entry hentry]
      exact List.mem_map_of_mem (List.mem_filterMap.mpr ⟨p, hp, hentry⟩)
  refine ⟨forall₂_filterMap fun p hp => ?_, List.pairwise_map.mpr hentries, fun index => ?_,
    fun index hno holds => ?_⟩
  · cases hentry : p.entry? with
    | none =>
      have hnone : p.arm?.isSome = false := by rw [p.isSome_arm?, hentry, Option.isSome_none]
      exact .inl ⟨rfl, Option.isSome_eq_false_iff.mp hnone |> Option.isNone_iff_eq_none.mp⟩
    | some entry =>
      have hsome : p.arm?.isSome = true := by rw [p.isSome_arm?, hentry, Option.isSome_some]
      obtain ⟨arm, harm⟩ := Option.isSome_iff_exists.mp hsome
      refine .inr ⟨entry, arm, rfl, harm, p.agree (hat p hp) hentry harm fun holds => ?_⟩
      rw [slot?, ofFields, find?_of_pairwise harms (List.mem_filterMap.mpr ⟨p, hp, harm⟩)]
      rfl
  · refine (hindex index).trans ?_
    constructor
    · intro h
      obtain ⟨p, hp, rfl, h⟩ := h
      exact ⟨p.field, (hat p hp).declared, (PlacedField.isSome_entry?_iff (hat p hp)).mp h⟩
    · intro h
      obtain ⟨field, hfield, h⟩ := h
      obtain ⟨p, hp, hplace, rfl⟩ := PlacedField.exists_placed accepted hfield
      exact ⟨p, hp, hplace, (PlacedField.isSome_entry?_iff (hat p hp)).mpr h⟩
  · rw [slot?, Option.map_eq_none_iff, List.find?_eq_none]
    intro arm harm hplace
    obtain ⟨p, hp, harm⟩ := List.mem_filterMap.mp harm
    refine hno ((hindex index).mpr ⟨p, hp, ?_, ?_⟩)
    · rw [← PlacedField.index_of_arm? harm]
      exact of_decide_eq_true hplace
    · rw [← p.isSome_arm?, harm]
      rfl

open RecordPrivacy.Declaration.Sample in
/-- Of a person the home may be absent, the name is text, and the two numbers are not touched, though
one has a directive. -/
theorem person_consistent : personOutline.Consistent personFields ∧
    (∃ field, personFields[1]? = some field ∧ field.Touched) ∧
    (∀ field, personFields[3]? = some field → ¬ field.Touched) ∧
    ∀ holds, personOutline.slot? 3 holds = none := by
  have hperson : personOutline.Consistent personFields :=
    halves_agree (by cbv) "fieldguard" person []
  refine ⟨hperson, ?_, ?_, ?_⟩
  · exact (hperson.touched 1).mp (by decide)
  · intro field hfield htouched
    exact absurd ((hperson.touched 3).mpr ⟨field, hfield, htouched⟩) (by decide)
  · exact hperson.elsewhere 3 (by decide)

end Outline

end RecordPrivacy.Declaration
