import RecordPrivacy.Declaration.Dispatch
import RecordPrivacy.Proofs.Declaration.Acceptance
import RecordPrivacy.Proofs.Declaration.Halves

/-! What a record does itself.

The lists of all guards of a record are cut at their commas, and so are the parentheses behind the
option that says what is overridden; what lies between the commas are names of actions
(`overrideNames`). Each is added unless it is there already, so that in the end there is the first of
those that name one action (`overridesOf_ok_iff`). The calls stand in arms by the same list, so an action
has one just if it is listed, and it is its own (`runOverride_eq`). -/
namespace RecordPrivacy.Declaration

variable {attributes : List Attribute}

/-! ### Names -/

/-- The option that lists overrides, with names in parentheses. -/
def OptionShaped (clause : List Tree) : Prop :=
  ∃ inside, clause = [.word "overrides", .group .parenthesis inside] ∧ inside ≠ []

/-- The names in a clause. -/
def namesIn : List Tree → List (List Tree)
  | .word _ :: .group .parenthesis inside :: _ => clausesOf inside
  | _ => []

/-- What lies between commas in the lists of overrides of all guards, as it is written. -/
def overrideNames (attributes : List Attribute) : List (List Tree) :=
  (attributes.flatMap Attribute.clauses).flatMap namesIn

/-- The trees are the name of the action. -/
def Names (name : List Tree) (action : Action) : Prop :=
  name = [.word action.text]

/-- No guard is set to a value, and a guard with a list has nothing in it but lists of overrides. -/
def Optioned (attributes : List Attribute) : Prop :=
  ∀ given ∈ attributes, given.name = some "guard" →
    given.content ≠ .value ∧ ∀ clause ∈ given.clauses, OptionShaped clause

/-- The action of a name is added, unless it is there already. -/
def AddsName (found : List Action) (name : List Tree) (next : List Action) : Prop :=
  ∃ action, Names name action ∧ next = addNew found action

theorem through_addsName_iff {names : List (List Tree)} {found next : List Action} :
    Through AddsName found names next ↔
      ∃ actions, List.Forall₂ Names names actions ∧ next = actions.foldl addNew found := by
  induction names generalizing found with
  | nil => simp [Through]
  | cons name names ih =>
    simp only [Through, ih]
    constructor
    · intro h
      obtain ⟨_, ⟨action, hname, rfl⟩, actions, hall, rfl⟩ := h
      exact ⟨action :: actions, .cons hname hall, rfl⟩
    · intro h
      obtain ⟨actions, hall, rfl⟩ := h
      cases hall with
      | cons hname hall => exact ⟨_, ⟨_, hname, rfl⟩, _, hall, rfl⟩

theorem overrideNames_cons (given : Attribute) (rest : List Attribute) :
    overrideNames (given :: rest) = given.clauses.flatMap namesIn ++ overrideNames rest := by
  rw [overrideNames, overrideNames, List.flatMap_cons, List.flatMap_append]

/-! ### Clauses -/

theorem addOverride_ok_iff {found next : List Action} {name : Option String} :
    addOverride found name = .ok next ↔
      ∃ action : Action, name = some action.text ∧ next = addNew found action := by
  rw [addOverride]
  constructor
  · intro h
    cases haction : name.bind Action.ofText? with
    | none => simp [haction] at h
    | some action =>
      simp only [haction] at h
      cases h
      obtain ⟨text, hname, htext⟩ := Option.bind_eq_some_iff.mp haction
      exact ⟨action, by rw [hname, Action.ofText?_eq_some.mp htext], rfl⟩
  · intro h
    obtain ⟨action, rfl, rfl⟩ := h
    rw [Option.bind_some, Action.ofText?_eq_some.mpr rfl]
    rfl

theorem addOption_ok_iff {found next : List Action} {clause : OptionClause} :
    addOption found clause = .ok next ↔ clause.name = some "overrides" ∧
      clause.names.foldUntil .form addOverride found = .ok next := by
  rw [addOption]
  split <;> simp [*]

/-- A clause of a name is taken if it names an action. -/
theorem takes_name : Takes Guard.nameBody addOverride AddsName where
  sound := by
    intro found next trees name rest head left? hname hbody hstep
    cases hbody
    obtain ⟨action, rfl, rfl⟩ := addOverride_ok_iff.mp hstep
    exact ⟨[.word action.text], rest, rfl, Guard.readName_eq_some hname, action, rfl, rfl⟩
  complete := by
    intro found next clause left ended h
    obtain ⟨action, rfl, rfl⟩ := h
    -- The name may not go on as a path, which a comma does not.
    have hpath : Tree.startsPath left = false := by
      rcases ended with rfl | ⟨joined, rest, rfl⟩
      · rfl
      · cases joined <;> rfl
    exact ⟨_, _, _, Guard.readName_word hpath, rfl, addOverride_ok_iff.mpr ⟨action, rfl, rfl⟩⟩
  unparted := by
    intro found next clause h
    obtain ⟨action, rfl, -⟩ := h
    exact ⟨List.cons_ne_nil _ _, by simp [Unparted, Tree.isComma]⟩

/-- A clause of a record is taken if it lists overrides. -/
theorem takes_option : Takes Guard.optionBody addOption fun found clause next =>
    OptionShaped clause ∧ Through AddsName found (namesIn clause) next where
  sound := by
    intro found next trees name rest clause left? hname hbody hstep
    obtain ⟨hclause, hfold⟩ := addOption_ok_iff.mp hstep
    rw [Guard.optionBody.eq_def] at hbody
    split at hbody
    · next inside left =>
      cases hbody
      cases hclause
      obtain ⟨hne, hadds⟩ := (Guard.readClauses_ok_iff takes_name).mp hfold
      exact ⟨_, left, rfl, Guard.readName_eq_some hname, ⟨inside, rfl, hne⟩, hadds⟩
    · cases hbody
      cases hfold
  complete := by
    intro found next clause left _ h
    obtain ⟨⟨inside, rfl, hne⟩, hadds⟩ := h
    exact ⟨_, _, _, Guard.readName_word rfl, rfl,
      addOption_ok_iff.mpr ⟨rfl, (Guard.readClauses_ok_iff takes_name).mpr ⟨hne, hadds⟩⟩⟩
  unparted := by
    intro found next clause h
    obtain ⟨⟨inside, rfl, -⟩, -⟩ := h
    exact ⟨List.cons_ne_nil _ _, by simp [Unparted, Tree.isComma]⟩

/-! ### Attributes -/

theorem overridesFrom_list_ok {found next : List Action} {clauses : Listing OptionClause}
    {rest : List (Guard OptionClause)} :
    overridesFrom found (.list clauses :: rest) = .ok next ↔
      ∃ mid, clauses.foldUntil .form addOption found = .ok mid ∧
        overridesFrom mid rest = .ok next := by
  rw [overridesFrom]
  cases clauses.foldUntil .form addOption found <;> simp

theorem overridesFrom_ok_iff {found next : List Action} :
    overridesFrom found (Guard.ofRecord attributes) = .ok next ↔
      Optioned attributes ∧ Through AddsName found (overrideNames attributes) next := by
  induction attributes generalizing found with
  | nil => simp [Guard.ofRecord, overridesFrom, Optioned, overrideNames, Through, eq_comm]
  | cons given rest ih =>
    rw [Guard.ofRecord, List.filterMap_cons, ← Guard.ofRecord, overrideNames_cons, Optioned,
      List.forall_mem_cons, ← Optioned, Guard.ofAttribute?]
    obtain ⟨name, content⟩ := given
    by_cases hname : name = some "guard"
    · subst hname
      cases content with
      | bare => simpa [overridesFrom, Attribute.clauses] using ih
      | value => simp [overridesFrom]
      | list inside =>
        simp only [if_true, overridesFrom_list_ok, Guard.list_ok_iff takes_option, ih,
          Attribute.clauses_list, through_append, ne_eq, reduceCtorEq, not_false_eq_true, true_and,
          true_implies]
        constructor
        · intro h
          obtain ⟨mid, ⟨hshaped, hinside⟩, hrest, hlater⟩ := h
          exact ⟨⟨hshaped, hrest⟩, mid, hinside, hlater⟩
        · intro h
          obtain ⟨⟨hshaped, hrest⟩, mid, hinside, hlater⟩ := h
          exact ⟨mid, ⟨hshaped, hinside⟩, hrest, hlater⟩
    · simpa [hname, Attribute.clauses_other] using ih

/-- Attributes are accepted if they list overrides only, and every name is that of an action; of these
there are the first occurrences, as they are written. -/
theorem overridesOf_ok_iff {overrides : List Action} : overridesOf attributes = .ok overrides ↔
    Optioned attributes ∧ ∃ actions, List.Forall₂ Names (overrideNames attributes) actions ∧
      overrides = actions.eraseDups := by
  rw [overridesOf, overridesFrom_ok_iff, through_addsName_iff]
  simp only [foldl_addNew_nil]

/-- What can be amiss with the attributes of a record. -/
inductive OptionDefect (attributes : List Attribute) : Prop
  | value : ⟨some "guard", .value⟩ ∈ attributes → OptionDefect attributes
  /-- Another option, or that of overrides with something else than names in parentheses behind it, as
  when it is set to a value. -/
  | option {clause : List Tree} : clause ∈ attributes.flatMap Attribute.clauses →
      (∀ inside, clause ≠ [.word "overrides", .group .parenthesis inside]) → OptionDefect attributes
  /-- The name of no action, or a name with something behind it, as when it is set to a value. -/
  | name {name : List Tree} : name ∈ overrideNames attributes →
      (∀ action : Action, name ≠ [.word action.text]) → OptionDefect attributes

theorem Optioned.shaped (h : Optioned attributes) {clause : List Tree}
    (hclause : clause ∈ attributes.flatMap Attribute.clauses) : OptionShaped clause := by
  obtain ⟨given, hgiven, hclause⟩ := List.mem_flatMap.mp hclause
  by_cases hname : given.name = some "guard"
  · exact (h given hgiven hname).2 clause hclause
  · rw [Attribute.clauses_other hname] at hclause
    cases hclause

theorem OptionDefect.refused (h : OptionDefect attributes) :
    ∃ e, overridesOf attributes = .error e := by
  cases hoverrides : overridesOf attributes with
  | error e => exact ⟨e, rfl⟩
  | ok overrides =>
    obtain ⟨optioned, actions, hnames, -⟩ := overridesOf_ok_iff.mp hoverrides
    cases h with
    | value hmem => exact absurd rfl (optioned _ hmem rfl).1
    | option hclause hno =>
      obtain ⟨inside, hclause, -⟩ := optioned.shaped hclause
      exact absurd hclause (hno inside)
    | name hname hno =>
      obtain ⟨action, -, hname⟩ := forall₂_mem_left hnames hname
      exact absurd hname (hno action)

/-! ### Dispatch -/

/-- The implementation of an action, with the registry of the capabilities that it is for. -/
def OwnActions.carryOut (own : OwnActions) (c : Capabilities) : Action → OwnAction
  | .hash => own.hash c.hasher?
  | .decrypt => own.decrypt c.encryptor?
  | .encrypt => own.encrypt c.encryptor?
  | .mask => own.mask c.masker?
  | .redact => own.redact

theorem OverrideCall.run?_overrideCall (own : OwnActions) (c : Capabilities) (action : Action) :
    (overrideCall action).run? own c = some (own.carryOut c action) := by
  cases action <;> rfl

namespace Outline

/-- An action has an arm just if it is listed, with its own call. -/
theorem lookup_callArms (o : Outline) (action : Action) :
    o.callArms.lookup action = o.dispatch? action := by
  rw [callArms, calls, dispatch?]
  induction o.overrides with
  | nil => rfl
  | cons first rest ih =>
    rw [List.map_cons, List.zip_cons_cons, List.lookup_cons, ih]
    by_cases hfirst : action = first
    · simp [hfirst]
    · rw [beq_false_of_ne hfirst]
      simp [hfirst]

/-- An action that is listed is carried out by its implementation; any other is declined. -/
theorem runOverride_eq (o : Outline) (own : OwnActions) (action : Action) (c : Capabilities)
    (record : Record) : o.runOverride own action c record =
      if action ∈ o.overrides then do
        let (left, result) ← own.carryOut c action record
        return (left, some result)
      else return (record, none) := by
  rw [runOverride, lookup_callArms, dispatch?]
  by_cases hlisted : action ∈ o.overrides
  · simp only [if_pos hlisted, Option.bind_some, OverrideCall.run?_overrideCall]
  · simp only [if_neg hlisted, Option.bind_none, Override.declining]

theorem overridesOf_of_ok {library : String} {item : Item} {o : Outline}
    (h : ofItem library item = .ok o) : overridesOf item.attributes = .ok o.overrides := by
  obtain ⟨overrides, fields, placed, hoverrides, -, -, rfl⟩ := ofItem_ok h
  exact hoverrides

theorem ofItem_of_error {library : String} {item : Item} {e : DeclarationError}
    (h : overridesOf item.attributes = .error e) : ofItem library item = .error e := by
  rw [ofItem, h]

/-- **What a record overrides is what it carries out itself.** Its attributes are accepted just if the
guards among them list overrides and nothing else, and all names are those of actions: then the first
occurrences of these are the overrides, of its outline as well. They are distinct, and exactly they are
carried out by implementations of the type's own, each by that of its name with the registry of its kind;
all other actions are declined. Whatever is amiss with the attributes has the item refused. -/
theorem overrides_exact (library : String) (item : Item) :
    (∀ overrides, overridesOf item.attributes = .ok overrides ↔
      Optioned item.attributes ∧ ∃ actions,
        List.Forall₂ Names (overrideNames item.attributes) actions ∧
          overrides = actions.eraseDups) ∧
    (∀ o, ofItem library item = .ok o →
      overridesOf item.attributes = .ok o.overrides ∧ o.overrides.Nodup ∧
        ∀ own action c record, o.runOverride own action c record =
          if action ∈ o.overrides then do
            let (left, result) ← own.carryOut c action record
            return (left, some result)
          else return (record, none)) ∧
    (OptionDefect item.attributes → ∃ e, overridesOf item.attributes = .error e ∧
      ofItem library item = .error e) := by
  refine ⟨fun overrides => overridesOf_ok_iff, fun o h => ?accepted, fun defect => ?refused⟩
  case accepted =>
    have hoverrides := overridesOf_of_ok h
    obtain ⟨-, actions, -, hfirst⟩ := overridesOf_ok_iff.mp hoverrides
    exact ⟨hoverrides, hfirst ▸ nodup_eraseDups actions, o.runOverride_eq⟩
  case refused =>
    obtain ⟨e, he⟩ := defect.refused
    exact ⟨e, he, ofItem_of_error he⟩

end Outline

/-! ### A login -/

namespace Sample

def overriding (names : List Tree) : Attribute :=
  ⟨some "guard", .list [.word "overrides", .group .parenthesis names]⟩

def login (attributes : List Attribute) : Item :=
  ⟨attributes, "Login", ⟨[], false, [], false⟩, .record []⟩

/-- Overrides in two lists, one of them twice in a list and one in both. -/
def loginGuards : List Attribute :=
  [⟨some "doc", .value⟩, bareGuard,
    overriding [.word "mask", .sign ',' false, .word "hash", .sign ',' false, .word "mask"],
    overriding [.word "hash", .sign ',' false, .word "redact", .sign ',' false]]

end Sample

theorem overriding_fits {names : List Tree} (h : names ≠ []) :
    (Sample.overriding names).content ≠ .value ∧
      ∀ clause ∈ (Sample.overriding names).clauses, OptionShaped clause :=
  ⟨by simp [Sample.overriding], List.forall_mem_singleton.mpr ⟨names, rfl, h⟩⟩

open RecordPrivacy.Declaration.Sample in
/-- A login that masks, hashes and redacts, and one that is refused for a name that is not known. -/
theorem Outline.login_overrides :
    (∃ o, ofItem "fieldguard" (login loginGuards) = .ok o ∧
      o.overrides = [.mask, .hash, .redact] ∧
      ∀ own c record,
        o.runOverride own .hash c record = (do
          let (left, result) ← own.hash c.hasher? record
          return (left, some result)) ∧
        o.runOverride own .encrypt c record = return (record, none)) ∧
    ∃ e, ofItem "fieldguard" (login [overriding [.word "compress"]]) = .error e := by
  have optioned : Optioned loginGuards := by
    intro given hgiven hname
    simp only [loginGuards, List.mem_cons, List.not_mem_nil, or_false] at hgiven
    rcases hgiven with rfl | rfl | rfl | rfl
    · simp at hname
    · exact ⟨by simp [bareGuard], List.forall_mem_nil _⟩
    · exact overriding_fits (List.cons_ne_nil _ _)
    · exact overriding_fits (List.cons_ne_nil _ _)
  have hnames : List.Forall₂ Names (overrideNames loginGuards) [.mask, .hash, .mask, .hash, .redact] :=
    .cons rfl (.cons rfl (.cons rfl (.cons rfl (.cons rfl .nil))))
  refine ⟨?accepted, ?refused⟩
  case accepted =>
    obtain ⟨haccepted, hdispatch, -⟩ := overrides_exact "fieldguard" (login loginGuards)
    have hoverrides := (haccepted [.mask, .hash, .redact]).mpr ⟨optioned, _, hnames, by decide⟩
    have hitem : ofItem "fieldguard" (login loginGuards) = .ok
        (ofFields "fieldguard" (login loginGuards) [.mask, .hash, .redact] []) := by
      rw [ofItem, hoverrides]
      rfl
    obtain ⟨-, -, hrun⟩ := hdispatch _ hitem
    exact ⟨_, hitem, rfl, fun own c record => ⟨hrun own .hash c record, hrun own .encrypt c record⟩⟩
  case refused =>
    have defect : OptionDefect [overriding [.word "compress"]] := by
      refine .name (List.mem_singleton.mpr rfl) fun action h => ?_
      cases action <;> simp [Action.text] at h
    obtain ⟨-, -, hrefused⟩ :=
      overrides_exact "fieldguard" (login [overriding [.word "compress"]])
    obtain ⟨e, -, herror⟩ := hrefused defect
    exact ⟨e, herror⟩

end RecordPrivacy.Declaration
