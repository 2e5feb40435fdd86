import RecordPrivacy.Declaration.Item
import RecordPrivacy.Declaration.Strategy
import RecordPrivacy.Proofs.Lists

/-! What makes a field what it is.

Guards that are accepted have all been heard: there is one directive for each action that they name,
and the field is nested just if one of them stands alone (`Gathered.addAll_ok`). So a field is
untouched just if none of its guards stands alone and none has a directive
(`Strategy.fits_of_ofAttributes`). -/
namespace RecordPrivacy

theorem Boundary.text_found (b : Boundary) : Boundary.all.find? (·.text == b.text) = some b := by
  cases b <;> decide

theorem Boundary.ofText?_eq_some {text : String} {boundary : Boundary} :
    ofText? text = some boundary ↔ boundary.text = text :=
  find?_named text_found

theorem Boundary.text_injective : Function.Injective Boundary.text :=
  name_injective text_found

theorem Action.text_found (a : Action) : Action.all.find? (·.text == a.text) = some a := by
  cases a <;> decide

theorem Action.ofText?_eq_some {text : String} {action : Action} :
    ofText? text = some action ↔ action.text = text :=
  find?_named text_found

theorem Action.text_injective : Function.Injective Action.text :=
  name_injective text_found

namespace Declaration

/-! ### Steps -/

theorem Listing.foldUntil_clause_ok {α σ ε : Type} {ofFault : FormFault → ε}
    {step : σ → α → Except ε σ} {start stop : σ} {head : α} {rest : Listing α} :
    (Listing.clause head rest).foldUntil ofFault step start = .ok stop ↔
      ∃ next, step start head = .ok next ∧ rest.foldUntil ofFault step next = .ok stop := by
  rw [foldUntil]
  cases step start head <;> simp

theorem actionOf?_eq_some {boundary : Boundary} {name : Option String} {action : Action} :
    actionOf? boundary name = some action ↔
      name = some action.text ∧ action.boundary = boundary := by
  cases name with
  | none => simp [actionOf?]
  | some text =>
    rw [actionOf?, Option.bind_some, Option.filter_eq_some_iff, Action.ofText?_eq_some,
      Option.some.injEq, decide_eq_true_eq, eq_comm (a := text)]

theorem addAction_ok_iff {boundary : Boundary} {found next : List Directive} {clause : ActionClause} :
    addAction boundary found clause = .ok next ↔ ∃ action parameter,
      clause.name = some action.text ∧ action.boundary = boundary ∧
        clause.parameter = .ok parameter ∧ (∀ other ∈ found, other.action ≠ action) ∧
        next = found ++ [⟨action, parameter⟩] := by
  rw [addAction]
  constructor
  · intro h
    cases haction : actionOf? boundary clause.name with
    | none => simp [haction] at h
    | some action =>
      obtain ⟨hname, hboundary⟩ := actionOf?_eq_some.mp haction
      cases hparameter : clause.parameter with
      | error fault => simp [haction, hparameter] at h
      | ok parameter =>
        simp only [haction, hparameter] at h
        by_cases hfound : found.any (·.action = action) = true
        · rw [if_pos hfound] at h
          cases h
        · rw [if_neg hfound] at h
          cases h
          exact ⟨action, parameter, hname, hboundary, rfl, by simpa using hfound, rfl⟩
  · intro h
    obtain ⟨action, parameter, hname, hboundary, hparameter, hnew, rfl⟩ := h
    have hfound : ¬ found.any (·.action = action) = true := by simpa using hnew
    simp only [actionOf?_eq_some.mpr ⟨hname, hboundary⟩, hparameter]
    exact if_neg hfound

theorem addBoundary_ok_iff {found next : List Directive} {clause : BoundaryClause} :
    addBoundary found clause = .ok next ↔ ∃ boundary : Boundary, clause.name = some boundary.text ∧
      clause.actions.foldUntil .form (addAction boundary) found = .ok next := by
  rw [addBoundary]
  constructor
  · intro h
    cases hboundary : clause.name.bind Boundary.ofText? with
    | none => simp [hboundary] at h
    | some boundary =>
      simp only [hboundary] at h
      obtain ⟨text, hname, htext⟩ := Option.bind_eq_some_iff.mp hboundary
      exact ⟨boundary, by rw [hname, Boundary.ofText?_eq_some.mp htext], h⟩
  · intro h
    obtain ⟨boundary, hname, hfold⟩ := h
    rw [hname, Option.bind_some, Boundary.ofText?_eq_some.mpr rfl]
    exact hfold

namespace Gathered
variable {found next : Gathered}

theorem addAll_cons_ok {guard : Guard BoundaryClause} {rest : List (Guard BoundaryClause)} :
    found.addAll (guard :: rest) = .ok next ↔
      ∃ mid, found.add guard = .ok mid ∧ mid.addAll rest = .ok next := by
  rw [addAll]
  cases found.add guard <;> simp

theorem add_bare_ok : found.add .bare = .ok next ↔ found = ⟨false, []⟩ ∧ next = ⟨true, []⟩ := by
  obtain ⟨isNested, directives⟩ := found
  cases isNested <;> cases directives <;> simp [add, eq_comm]

theorem add_list_ok {clauses : Listing BoundaryClause} : found.add (.list clauses) = .ok next ↔
    found.isNested = false ∧ next.isNested = false ∧
      clauses.foldUntil .form addBoundary found.directives = .ok next.directives := by
  obtain ⟨isNested, directives⟩ := found
  cases isNested with
  | true => simp [add]
  | false =>
    rw [add, if_neg Bool.false_ne_true]
    cases clauses.foldUntil .form addBoundary directives with
    | error e => simp
    | ok result =>
      obtain ⟨isNested', directives'⟩ := next
      simp

end Gathered

/-! ### Guards -/

/-- The actions that a guard names, each with its parameter. -/
def Guard.actionClauses : Guard BoundaryClause → List ActionClause
  | .list clauses => clauses.toList.flatMap (·.actions.toList)
  | _ => []

/-- If every clause adds as many as it has parts, so do all clauses together. -/
theorem Listing.length_foldUntil {α β γ ε : Type} {ofFault : FormFault → ε}
    {step : List β → α → Except ε (List β)} (parts : α → List γ)
    (each : ∀ found clause next, step found clause = .ok next →
      next.length = found.length + (parts clause).length)
    {listing : Listing α} {found result : List β}
    (h : listing.foldUntil ofFault step found = .ok result) :
    result.length = found.length + (listing.toList.flatMap parts).length := by
  induction listing generalizing found with
  | done =>
    cases h
    rfl
  | broken fault => cases h
  | clause head rest ih =>
    obtain ⟨next, hstep, hrest⟩ := foldUntil_clause_ok.mp h
    rw [ih hrest, each found head next hstep, toList, List.flatMap_cons, List.length_append,
      Nat.add_assoc]

theorem length_addAction {boundary : Boundary} {found next : List Directive} {clause : ActionClause}
    (h : addAction boundary found clause = .ok next) : next.length = found.length + 1 := by
  obtain ⟨_, _, -, -, -, -, rfl⟩ := addAction_ok_iff.mp h
  rw [List.length_append, List.length_singleton]

theorem length_addBoundary {found next : List Directive} {clause : BoundaryClause}
    (h : addBoundary found clause = .ok next) :
    next.length = found.length + clause.actions.toList.length := by
  obtain ⟨boundary, -, hfold⟩ := addBoundary_ok_iff.mp h
  rw [Listing.length_foldUntil (fun action => [action]) (fun _ _ _ => length_addAction) hfold,
    List.flatMap_singleton']

namespace Gathered
variable {found next : Gathered}

/-- A guard that is accepted adds its directives, or makes the field a nested record. -/
theorem add_ok {guard : Guard BoundaryClause} (h : found.add guard = .ok next) :
    (next.isNested = true ↔ found.isNested = true ∨ guard = .bare) ∧
      next.directives.length = found.directives.length + guard.actionClauses.length := by
  cases guard with
  | bare =>
    obtain ⟨rfl, rfl⟩ := add_bare_ok.mp h
    exact ⟨by simp, rfl⟩
  | value => cases h
  | list clauses =>
    obtain ⟨hfound, hnext, hfold⟩ := add_list_ok.mp h
    rw [hfound, hnext]
    exact ⟨by simp, Listing.length_foldUntil (fun clause : BoundaryClause => clause.actions.toList)
      (fun _ _ _ => length_addBoundary) hfold⟩

theorem addAll_ok {guards : List (Guard BoundaryClause)} (h : found.addAll guards = .ok next) :
    (next.isNested = true ↔ found.isNested = true ∨ .bare ∈ guards) ∧
      next.directives.length =
        found.directives.length + (guards.flatMap Guard.actionClauses).length := by
  induction guards generalizing found with
  | nil =>
    cases h
    exact ⟨by simp, rfl⟩
  | cons guard rest ih =>
    obtain ⟨mid, hadd, hrest⟩ := addAll_cons_ok.mp h
    obtain ⟨hnested, hlength⟩ := add_ok hadd
    obtain ⟨hnested', hlength'⟩ := ih hrest
    constructor
    · rw [hnested', hnested, List.mem_cons, or_assoc, eq_comm (a := guard)]
    · rw [hlength', hlength, List.flatMap_cons, List.length_append, Nat.add_assoc]

end Gathered

/-! ### Fields -/

namespace DeclaredField

/-- One of the field's guards stands alone. -/
def Bare (field : DeclaredField) : Prop :=
  ⟨some "guard", .bare⟩ ∈ field.attributes

/-- One of the field's guards has a directive. -/
def Directed (field : DeclaredField) : Prop :=
  ∃ guard ∈ Guard.ofField field.attributes, guard.actionClauses ≠ []

end DeclaredField

theorem Guard.bare_mem_ofField {attributes : List Attribute} :
    .bare ∈ ofField attributes ↔ ⟨some "guard", .bare⟩ ∈ attributes := by
  rw [ofField, List.mem_filterMap]
  constructor
  · intro h
    obtain ⟨⟨name, content⟩, hmem, hguard⟩ := h
    rw [ofAttribute?] at hguard
    by_cases hname : name = some "guard"
    · subst hname
      cases content with
      | bare => exact hmem
      | value => cases hguard
      | list inside => cases hguard
    · rw [if_neg hname] at hguard
      cases hguard
  · intro h
    exact ⟨_, h, rfl⟩

/-- What the attributes of a field with the strategy are like. -/
def Strategy.Fits (field : DeclaredField) : Strategy → Prop
  | .untouched => ¬ field.Bare ∧ ¬ field.Directed
  | .nested => field.Bare
  | .directives _ => ¬ field.Bare ∧ field.Directed

theorem Strategy.fits_of_ofAttributes {field : DeclaredField} {strategy : Strategy}
    (h : ofAttributes field.attributes = .ok strategy) : strategy.Fits field := by
  rw [ofAttributes, ofGuards] at h
  cases hgathered : Gathered.addAll ⟨false, []⟩ (Guard.ofField field.attributes) with
  | error e =>
    rw [hgathered] at h
    cases h
  | ok gathered =>
    rw [hgathered] at h
    obtain ⟨hnested, hlength⟩ := Gathered.addAll_ok hgathered
    have hbare : gathered.isNested = true ↔ field.Bare := by
      rw [hnested, Guard.bare_mem_ofField]
      simp [DeclaredField.Bare]
    have hnone : gathered.directives.isEmpty = true ↔ ¬ field.Directed := by
      rw [List.isEmpty_iff, ← List.length_eq_zero_iff, hlength, List.length_nil, Nat.zero_add,
        List.length_eq_zero_iff, List.flatMap_eq_nil_iff]
      simp [DeclaredField.Directed]
    rw [Except.map, Gathered.strategy] at h
    by_cases hn : gathered.isNested = true
    · rw [if_pos hn] at h
      cases h
      exact hbare.mp hn
    · rw [if_neg hn] at h
      have hb : ¬ field.Bare := fun hb => hn (hbare.mpr hb)
      by_cases hd : gathered.directives.isEmpty = true
      · rw [if_pos hd] at h
        cases h
        exact ⟨hb, hnone.mp hd⟩
      · rw [if_neg hd] at h
        cases h
        exact ⟨hb, Classical.byContradiction fun hn => hd (hnone.mpr hn)⟩

end Declaration

end RecordPrivacy
