import Mathlib.Data.List.Perm.Basic
import RecordPrivacy.Proofs.Declaration.Acceptance

/-! Attributes in another order.

Lists of guards are heard alike in whatever order they come, since each adds its own entries
(`Bears.perm`). A guard that stands alone is another matter: it says that it contradicts what was heard
before it only if that has a directive, and contradicts any list that follows it, even an empty one
(`Strategy.ofAttributes_insert`). So there is one way to have attributes refused by giving them another
order, which is to put an empty list behind a guard that stands alone (`Strategy.ofAttributes_perm`). -/
namespace RecordPrivacy.Declaration

variable {a b before after attributes : List Attribute}

/-- The strategies ask for the same, be it with the directives in another order. -/
inductive Strategy.Alike : Strategy → Strategy → Prop
  | untouched : Alike .untouched .untouched
  | nested : Alike .nested .nested
  | directives {given other : List Directive} : given.Perm other →
      Alike (.directives given) (.directives other)

/-- An empty list stands behind a guard that stands alone. -/
def BareThenEmpty (attributes : List Attribute) : Prop :=
  [⟨some "guard", .bare⟩, ⟨some "guard", .list []⟩].Sublist attributes

/-- Some directive is present, or an empty list stands behind a guard that stands alone. -/
def Contradictory (attributes : List Attribute) : Prop :=
  entriesOf attributes ≠ [] ∨ BareThenEmpty attributes

/-! ### Lists in another order -/

theorem entriesOf_perm (h : a.Perm b) : (entriesOf a).Perm (entriesOf b) :=
  (h.flatMap_right Attribute.clauses).flatMap_right entriesIn

theorem Listed.perm (h : a.Perm b) (listed : Listed a) : Listed b := by
  intro given hgiven
  exact listed given (h.mem_iff.mpr hgiven)

theorem Listed.plain (listed : Listed attributes) : ∀ given ∈ attributes, given.isBare = false := by
  intro given hgiven
  refine Bool.eq_false_iff.mpr fun hbare => ?_
  obtain ⟨hname, hcontent⟩ := Attribute.isBare_iff.mp hbare
  obtain ⟨inside, hlist, -⟩ := listed given hgiven hname
  cases hcontent.symm.trans hlist

theorem Bears.perm (h : a.Perm b) {directives : List Directive} (bears : Bears a directives) :
    ∃ other, directives.Perm other ∧ Bears b other := by
  obtain ⟨other, hspelled, hperm⟩ := List.perm_comp_forall₂ (entriesOf_perm h).symm bears.spelled
  refine ⟨other, hperm.symm, bears.listed.perm h, hspelled, ?_⟩
  exact (hperm.map Directive.action).nodup_iff.mpr bears.distinct

/-! ### Around a guard that stands alone -/

namespace Gathered
variable {found mid : Gathered} {guards later : List (Guard BoundaryClause)}

theorem addAll_append (h : found.addAll guards = .ok mid) :
    found.addAll (guards ++ later) = mid.addAll later := by
  induction guards generalizing found with
  | nil =>
    cases h
    rfl
  | cons guard guards ih =>
    obtain ⟨next, hadd, hrest⟩ := addAll_cons_ok.mp h
    rw [List.cons_append, addAll, hadd]
    exact ih hrest

/-- Behind a guard that stands alone the first list is refused. -/
theorem addAll_lists {directives : List Directive}
    (lists : ∀ guard ∈ guards, ∃ clauses, guard = .list clauses) (hne : guards ≠ []) :
    addAll ⟨true, directives⟩ guards = .error .nestedWithDirectives := by
  obtain ⟨guard, rest, rfl⟩ := List.exists_cons_of_ne_nil hne
  obtain ⟨clauses, rfl⟩ := lists guard List.mem_cons_self
  rfl

end Gathered

namespace Guard

theorem ofField_append : ofField (before ++ after) = ofField before ++ ofField after :=
  List.filterMap_append

theorem ofField_eq_nil_iff :
    ofField attributes = [] ↔ ∀ given ∈ attributes, given.name ≠ some "guard" := by
  rw [ofField, List.filterMap_eq_nil_iff]
  refine forall₂_congr fun given _ => ⟨Gathered.other_of_ofAttribute?, fun hother => ?_⟩
  exact if_neg hother

/-- A guard is what its attribute is: it stands alone, has a value, or is a list. -/
theorem ofAttribute?_eq_some {given : Attribute} {guard : Guard BoundaryClause}
    (h : ofAttribute? boundaryBody given = some guard) : given.name = some "guard" ∧
      match guard with
      | .bare => given.content = .bare
      | .value => given.content = .value
      | .list _ => ∃ inside, given.content = .list inside := by
  obtain ⟨name, content⟩ := given
  rw [ofAttribute?] at h
  by_cases hname : name = some "guard"
  · rw [if_pos hname] at h
    cases content <;> cases h
    · exact ⟨hname, rfl⟩
    · exact ⟨hname, rfl⟩
    · exact ⟨hname, _, rfl⟩
  · rw [if_neg hname] at h
    cases h

theorem list_of_mem_ofField (listed : Listed attributes) :
    ∀ guard ∈ ofField attributes, ∃ clauses, guard = .list clauses := by
  intro guard hguard
  obtain ⟨given, hgiven, hof⟩ := List.mem_filterMap.mp hguard
  obtain ⟨hname, hcontent⟩ := ofAttribute?_eq_some hof
  obtain ⟨inside, hlist, -⟩ := listed given hgiven hname
  cases guard with
  | bare => cases hlist.symm.trans hcontent
  | value => cases hlist.symm.trans hcontent
  | list clauses => exact ⟨clauses, rfl⟩

end Guard

/-- Attributes that are accepted are lists, if none of them stands alone. -/
theorem Strategy.listed_of_ok {strategy : Strategy} (h : ofAttributes attributes = .ok strategy)
    (plain : ∀ given ∈ attributes, given.isBare = false) :
    ∃ directives, Bears attributes directives := by
  obtain ⟨⟨isNested, directives⟩, hheard, -⟩ := ofAttributes_ok_iff.mp h
  cases isNested with
  | true =>
    obtain ⟨-, -, front, back, rfl, -, -⟩ := Gathered.hears_bare.mp hheard
    exact absurd (plain _ (List.mem_append_right _ List.mem_cons_self)) (by decide)
  | false => exact ⟨directives, bears_iff.mpr hheard⟩

/-- **A guard that stands alone, put among lists.** It is accepted just if no list before it has an
entry, and no list follows it; otherwise it is refused together with them. -/
theorem Strategy.ofAttributes_insert {directives : List Directive}
    (bears : Bears (before ++ after) directives) :
    ((entriesOf before = [] ∧ ∀ given ∈ after, given.name ≠ some "guard") →
      ofAttributes (before ++ ⟨some "guard", .bare⟩ :: after) = .ok .nested) ∧
    (¬ (entriesOf before = [] ∧ ∀ given ∈ after, given.name ≠ some "guard") →
      ofAttributes (before ++ ⟨some "guard", .bare⟩ :: after) = .error .nestedWithDirectives) := by
  have hlisted := List.forall_mem_append.mp bears.listed
  -- What is heard before the guard, and whether that has a directive.
  obtain ⟨found, hfound, hadds⟩ : ∃ found, Gathered.addAll ⟨false, []⟩ (Guard.ofField before) =
      .ok ⟨false, found⟩ ∧ Through Entry.Adds [] (entriesOf before) found := by
    have hthrough := (Gathered.hears_lists.mp (bears_iff.mp bears)).2
    rw [entriesOf_append] at hthrough
    obtain ⟨found, hadds, -⟩ := through_append.mp hthrough
    exact ⟨found, Gathered.addAll_ok_iff.mpr (Gathered.hears_lists.mpr ⟨hlisted.1, hadds⟩), hadds⟩
  have hguards : Guard.ofField (before ++ ⟨some "guard", .bare⟩ :: after) =
      Guard.ofField before ++ .bare :: Guard.ofField after := Guard.ofField_append
  rw [ofAttributes, ofGuards, hguards, Gathered.addAll_append hfound]
  have hlength := length_of_adds hadds
  rw [List.length_nil, Nat.zero_add] at hlength
  constructor
  · intro h
    obtain ⟨hentries, hafter⟩ := h
    rw [hentries, List.length_nil, List.length_eq_zero_iff] at hlength
    rw [hlength, Guard.ofField_eq_nil_iff.mpr hafter]
    rfl
  · intro h
    cases found with
    | cons first rest => rfl
    | nil =>
      have hentries : entriesOf before = [] := List.length_eq_zero_iff.mp hlength.symm
      have hne : Guard.ofField after ≠ [] := fun hnil =>
        h ⟨hentries, Guard.ofField_eq_nil_iff.mp hnil⟩
      show ((Gathered.addAll ⟨true, []⟩ (Guard.ofField after)).map _) = _
      rw [Gathered.addAll_lists (Guard.list_of_mem_ofField hlisted.2) hne]
      rfl

/-! ### One guard that stands alone -/

theorem bareThenEmpty_iff (plain : ∀ given ∈ before, given.isBare = false) :
    BareThenEmpty (before ++ ⟨some "guard", .bare⟩ :: after) ↔
      ⟨some "guard", .list []⟩ ∈ after := by
  rw [BareThenEmpty]
  induction before with
  | nil => rw [List.nil_append, List.cons_sublist_cons, List.singleton_sublist]
  | cons first before ih =>
    obtain ⟨hfirst, hbefore⟩ := List.forall_mem_cons.mp plain
    rw [← ih hbefore, List.cons_append]
    constructor
    · intro h
      cases h with
      | cons _ h => exact h
      | cons_cons _ h => cases hfirst
    · intro h
      exact h.cons first

/-- A guard that stands alone among lists contradicts what is before it or what is behind it. -/
theorem contradictory_iff {directives : List Directive} (bears : Bears (before ++ after) directives) :
    Contradictory (before ++ ⟨some "guard", .bare⟩ :: after) ↔
      ¬ (entriesOf before = [] ∧ ∀ given ∈ after, given.name ≠ some "guard") := by
  obtain ⟨hfront, hback⟩ := List.forall_mem_append.mp bears.listed
  have hentries : entriesOf (before ++ ⟨some "guard", .bare⟩ :: after) =
      entriesOf before ++ entriesOf after := by
    rw [entriesOf_append, entriesOf_cons]
    rfl
  -- Among lists there is a guard just if one has an entry or one is empty.
  have hguard : (∀ given ∈ after, given.name ≠ some "guard") ↔
      entriesOf after = [] ∧ ⟨some "guard", .list []⟩ ∉ after := by
    constructor
    · intro hnone
      have hsilent : Silent after := fun given hgiven hname => absurd hname (hnone given hgiven)
      exact ⟨(silent_iff.mp hsilent).2, fun hmem => hnone _ hmem rfl⟩
    · intro h given hgiven hname
      obtain ⟨hnone, hempty⟩ := h
      have hcontent := silent_iff.mpr ⟨hback, hnone⟩ given hgiven hname
      obtain ⟨name, content⟩ := given
      cases hname
      cases hcontent
      exact hempty hgiven
  rw [Contradictory, hentries, bareThenEmpty_iff (Listed.plain hfront), hguard, Ne, List.append_eq_nil_iff]
  tauto

/-- Where one guard stands alone, the others are accepted together with it just if nothing contradicts
it; it is the contradiction that is reported. -/
theorem Strategy.ofAttributes_one {directives : List Directive}
    (once : attributes.countP Attribute.isBare = 1)
    (bears : Bears (attributes.filter (!·.isBare)) directives) :
    (¬ Contradictory attributes → ofAttributes attributes = .ok .nested) ∧
      (Contradictory attributes → ofAttributes attributes = .error .nestedWithDirectives) := by
  obtain ⟨given, hgiven, hbare⟩ := List.countP_pos_iff.mp (Nat.lt_of_lt_of_eq Nat.one_pos once.symm)
  obtain ⟨before, after, rfl⟩ := List.append_of_mem hgiven
  obtain ⟨name, content⟩ := given
  obtain ⟨hname, hcontent⟩ := Attribute.isBare_iff.mp hbare
  cases hname
  cases hcontent
  have hothers : (before ++ ⟨some "guard", .bare⟩ :: after).filter (!·.isBare) = before ++ after := by
    rw [List.countP_append, List.countP_cons_of_pos rfl] at once
    have hbefore : before.countP Attribute.isBare = 0 := by omega
    have hafter : after.countP Attribute.isBare = 0 := by omega
    rw [List.countP_eq_zero] at hbefore hafter
    rw [List.filter_append, List.filter_cons_of_neg (by decide), List.filter_eq_self.mpr,
      List.filter_eq_self.mpr]
    · intro given hgiven
      simpa using hafter given hgiven
    · intro given hgiven
      simpa using hbefore given hgiven
  rw [hothers] at bears
  rw [contradictory_iff bears, not_not]
  exact ofAttributes_insert bears

/-! ### Any order -/

theorem bears_nil_iff : Bears attributes [] ↔ Silent attributes :=
  bears_iff.trans Gathered.hears_silent

/-- Beside a guard that is accepted alone there are only empty lists. -/
theorem Alone.bears (h : Alone attributes) : Bears (attributes.filter (!·.isBare)) [] := by
  refine bears_nil_iff.mpr fun given hgiven hname => ?_
  obtain ⟨hgiven, hplain⟩ := List.mem_filter.mp hgiven
  refine (h.content hgiven hname).resolve_left fun hcontent => ?_
  rw [Attribute.isBare_iff.mpr ⟨hname, hcontent⟩] at hplain
  cases hplain

/-- What is accepted in one order is accepted in another in which nothing contradicts it. -/
theorem Strategy.alike_of_perm (h : a.Perm b) {strategy : Strategy}
    (ha : ofAttributes a = .ok strategy) (hb : ¬ BareThenEmpty b) :
    ∃ other, ofAttributes b = .ok other ∧ strategy.Alike other := by
  cases strategy with
  | untouched =>
    obtain ⟨other, hperm, bears⟩ := (bears_nil_iff.mpr (untouched_iff.mp ha)).perm h
    obtain rfl := hperm.symm.eq_nil
    exact ⟨.untouched, untouched_iff.mpr (bears_nil_iff.mp bears), .untouched⟩
  | nested =>
    have alone := nested_iff.mp ha
    obtain ⟨other, -, bears⟩ := alone.bears.perm (h.filter (!·.isBare))
    have once : b.countP Attribute.isBare = 1 := (h.countP_eq _).symm.trans alone.count
    have hentries : entriesOf b = [] := (alone.entries ▸ entriesOf_perm h).symm.eq_nil
    have hnone : ¬ Contradictory b := fun hc => hc.elim (fun hne => hne hentries) hb
    exact ⟨.nested, (ofAttributes_one once bears).1 hnone, .nested⟩
  | directives directives =>
    obtain ⟨bears, hne⟩ := directives_iff.mp ha
    obtain ⟨other, hperm, bears⟩ := bears.perm h
    have hother : other ≠ [] := fun hnil => hne (hnil ▸ hperm).eq_nil
    exact ⟨.directives other, directives_iff.mpr ⟨bears, hother⟩, .directives hperm⟩

/-- Where a guard stands alone, what is accepted is a nested record. -/
theorem Strategy.nested_of_bare {strategy : Strategy} (h : ofAttributes attributes = .ok strategy)
    (hbare : ⟨some "guard", .bare⟩ ∈ attributes) : strategy = .nested := by
  cases strategy with
  | untouched => cases (bears_nil_iff.mpr (untouched_iff.mp h)).listed.plain _ hbare
  | nested => rfl
  | directives directives => cases (directives_iff.mp h).1.listed.plain _ hbare

/-! ### Where it is reported -/

theorem Listing.foldUntil_ne_error {α σ ε : Type} {ofFault : FormFault → ε}
    {step : σ → α → Except ε σ} {e : ε} (faults : ∀ fault, ofFault fault ≠ e)
    (steps : ∀ state head, step state head ≠ .error e) {listing : Listing α} {start : σ} :
    listing.foldUntil ofFault step start ≠ .error e := by
  induction listing generalizing start with
  | done => exact nofun
  | broken fault => exact fun h => faults fault (Except.error.inj h)
  | clause head rest ih =>
    rw [foldUntil]
    cases hstep : step start head with
    | error e' => exact fun h => steps start head (hstep.trans h)
    | ok next => exact ih

theorem addAction_ne_conflict (boundary : Boundary) (found : List Directive) (clause : ActionClause) :
    addAction boundary found clause ≠ .error .nestedWithDirectives := by
  rw [addAction]
  cases actionOf? boundary clause.name with
  | none => simp
  | some action =>
    cases clause.parameter with
    | error fault => simp
    | ok parameter =>
      dsimp only
      split <;> simp

/-- In the list of a guard no contradiction is found. -/
theorem addBoundary_ne_conflict (found : List Directive) (clause : BoundaryClause) :
    addBoundary found clause ≠ .error .nestedWithDirectives := by
  rw [addBoundary]
  cases clause.name.bind Boundary.ofText? with
  | none => simp
  | some boundary =>
    exact Listing.foldUntil_ne_error (fun _ h => by cases h) (addAction_ne_conflict boundary)

namespace Gathered
variable {found : Gathered}

/-- A guard that stands alone contradicts directives, and any list contradicts one that did. -/
theorem add_conflict_iff {guard : Guard BoundaryClause} :
    found.add guard = .error .nestedWithDirectives ↔
      (guard = .bare ∧ found.isNested = false ∧ found.directives ≠ []) ∨
        ((∃ clauses, guard = .list clauses) ∧ found.isNested = true) := by
  obtain ⟨isNested, directives⟩ := found
  cases guard with
  | bare => cases isNested <;> cases directives <;> simp [add]
  | value => simp [add]
  | list clauses =>
    cases isNested with
    | true => simp [add]
    | false =>
      have hfold : clauses.foldUntil .form addBoundary directives ≠ .error .nestedWithDirectives :=
        Listing.foldUntil_ne_error (fun _ h => by cases h) addBoundary_ne_conflict
      rw [add, if_neg Bool.false_ne_true]
      cases hresult : clauses.foldUntil .form addBoundary directives with
      | error e =>
        rw [hresult] at hfold
        simpa using hfold
      | ok result => simp

/-- What is reported is found at one attribute, after those before it were heard. -/
theorem addAll_error_iff {e : DeclarationError} :
    found.addAll (Guard.ofField attributes) = .error e ↔
      ∃ before given after mid guard, attributes = before ++ given :: after ∧
        Through Hears found before mid ∧
        Guard.ofAttribute? Guard.boundaryBody given = some guard ∧ mid.add guard = .error e := by
  constructor
  · intro h
    induction attributes generalizing found with
    | nil => cases h
    | cons given rest ih =>
      cases hguard : Guard.ofAttribute? Guard.boundaryBody given with
      | none =>
        rw [Guard.ofField, List.filterMap_cons_none hguard] at h
        obtain ⟨before, other, after, mid, guard, rfl, hbefore, hother, hadd⟩ := ih h
        exact ⟨given :: before, other, after, mid, guard, rfl,
          ⟨found, .other (other_of_ofAttribute? hguard), hbefore⟩, hother, hadd⟩
      | some guard =>
        rw [Guard.ofField, List.filterMap_cons_some hguard, addAll] at h
        cases hadd : found.add guard with
        | error e' =>
          rw [hadd] at h
          cases h
          exact ⟨[], given, rest, found, guard, rfl, rfl, hguard, hadd⟩
        | ok next =>
          rw [hadd] at h
          obtain ⟨before, other, after, mid, guard', rfl, hbefore, hother, hadd'⟩ := ih h
          exact ⟨given :: before, other, after, mid, guard', rfl,
            ⟨next, (add_ok_iff hguard).mp hadd, hbefore⟩, hother, hadd'⟩
  · intro h
    obtain ⟨before, given, after, mid, guard, rfl, hbefore, hguard, hadd⟩ := h
    have hguards : Guard.ofField (before ++ given :: after) =
        Guard.ofField before ++ guard :: Guard.ofField after := by
      rw [Guard.ofField_append]
      exact congrArg _ (List.filterMap_cons_some hguard)
    rw [hguards, addAll_append (addAll_ok_iff.mpr hbefore), addAll, hadd]

end Gathered

/-- The attribute contradicts those before it: they have directives and it stands alone, or they make a
nested record and it is a list. -/
def Attribute.Contradicts (given : Attribute) (before : List Attribute) : Prop :=
  (given = ⟨some "guard", .bare⟩ ∧
      ∃ directives, Strategy.ofAttributes before = .ok (.directives directives)) ∨
    ((∃ inside, given = ⟨some "guard", .list inside⟩) ∧ Strategy.ofAttributes before = .ok .nested)

theorem Strategy.ofAttributes_conflict_iff : ofAttributes attributes = .error .nestedWithDirectives ↔
    ∃ before given after, attributes = before ++ given :: after ∧ given.Contradicts before := by
  have hmap : ofAttributes attributes = .error .nestedWithDirectives ↔
      Gathered.addAll ⟨false, []⟩ (Guard.ofField attributes) = .error .nestedWithDirectives := by
    rw [ofAttributes, ofGuards]
    cases Gathered.addAll ⟨false, []⟩ (Guard.ofField attributes) <;> simp [Except.map]
  rw [hmap, Gathered.addAll_error_iff]
  constructor
  · intro h
    obtain ⟨before, ⟨name, content⟩, after, ⟨isNested, directives⟩, guard, rfl, hbefore, hguard,
      hadd⟩ := h
    refine ⟨before, _, after, rfl, ?_⟩
    rcases Gathered.add_conflict_iff.mp hadd with ⟨rfl, hnot, hne⟩ | ⟨⟨clauses, rfl⟩, hnested⟩
    · cases hnot
      obtain ⟨rfl, rfl⟩ := Guard.ofAttribute?_eq_some hguard
      exact .inl ⟨rfl, directives, directives_iff.mpr ⟨bears_iff.mpr hbefore, hne⟩⟩
    · cases hnested
      obtain ⟨rfl, inside, rfl⟩ := Guard.ofAttribute?_eq_some hguard
      exact .inr ⟨⟨inside, rfl⟩, ofAttributes_ok_iff.mpr ⟨_, hbefore, rfl⟩⟩
  · intro h
    obtain ⟨before, given, after, rfl, ⟨rfl, directives, hbefore⟩ | ⟨⟨inside, rfl⟩, hbefore⟩⟩ := h
    · obtain ⟨bears, hne⟩ := directives_iff.mp hbefore
      exact ⟨before, _, after, _, _, rfl, bears_iff.mp bears, rfl,
        Gathered.add_conflict_iff.mpr (.inl ⟨rfl, rfl, hne⟩)⟩
    · have hheard := Gathered.hears_bare.mpr ⟨rfl, rfl, nested_iff.mp hbefore⟩
      exact ⟨before, _, after, _, _, rfl, hheard, rfl,
        Gathered.add_conflict_iff.mpr (.inr ⟨⟨_, rfl⟩, rfl⟩)⟩

/-- **The order of attributes.** Attributes that are accepted are accepted in every other order too, for
the same strategy, except that an empty list may not be put behind a guard that stands alone. A guard
that stands alone among lists that are accepted without it is reported to contradict them just if
some directive is present, or an empty list stands behind it; whatever the attributes, it is reported
at the first that contradicts those before it. -/
theorem Strategy.ofAttributes_perm (h : a.Perm b) :
    (∀ strategy, ofAttributes a = .ok strategy → ¬ BareThenEmpty b →
      ∃ other, ofAttributes b = .ok other ∧ strategy.Alike other) ∧
    (∀ strategy, ofAttributes a = .ok strategy → BareThenEmpty b →
      strategy = .nested ∧ ofAttributes b = .error .nestedWithDirectives) ∧
    (a.countP Attribute.isBare = 1 →
      (∃ strategy, ofAttributes (a.filter (!·.isBare)) = .ok strategy) →
      (ofAttributes a = .error .nestedWithDirectives ↔
        entriesOf a ≠ [] ∨ BareThenEmpty a)) ∧
    (ofAttributes a = .error .nestedWithDirectives ↔
      ∃ before given after, a = before ++ given :: after ∧ given.Contradicts before) := by
  refine ⟨fun _ => alike_of_perm h, fun strategy ha hb => ?_, fun once hothers => ?_,
    ofAttributes_conflict_iff⟩
  · have hbare := h.mem_iff.mpr (hb.subset List.mem_cons_self)
    obtain rfl := nested_of_bare ha hbare
    have alone := nested_iff.mp ha
    obtain ⟨other, -, bears⟩ := alone.bears.perm (h.filter (!·.isBare))
    have once : b.countP Attribute.isBare = 1 := (h.countP_eq _).symm.trans alone.count
    exact ⟨rfl, (ofAttributes_one once bears).2 (.inr hb)⟩
  · obtain ⟨strategy, hothers⟩ := hothers
    have hplain : ∀ given ∈ a.filter (!·.isBare), given.isBare = false := by
      intro given hgiven
      simpa using (List.mem_filter.mp hgiven).2
    obtain ⟨directives, bears⟩ := listed_of_ok hothers hplain
    obtain ⟨haccepted, hrefused⟩ := ofAttributes_one once bears
    refine ⟨fun hconflict => ?_, hrefused⟩
    by_contra hnone
    cases (haccepted hnone).symm.trans hconflict

/-- A list in which there is nothing. -/
def Sample.emptyGuard : Attribute := ⟨some "guard", .list []⟩

open RecordPrivacy.Declaration.Sample in
/-- A field that is stored encrypted and sent masked, with its guards in another order; a nested record
with an empty list, which may come before the guard that stands alone and not after it; and a nested
record that has a directive. -/
theorem Strategy.guards_reordered :
    (∃ other, ofAttributes [maskGuard, emptyGuard, storeGuard] = .ok other ∧
      Alike (.directives [⟨.encrypt, "aes"⟩, ⟨.decrypt, "aes"⟩, ⟨.mask, "name"⟩]) other) ∧
    ofAttributes [bareGuard, emptyGuard] = .error .nestedWithDirectives ∧
    ofAttributes [emptyGuard, bareGuard, maskGuard] = .error .nestedWithDirectives := by
  have hstored : ofAttributes [storeGuard, emptyGuard, maskGuard] =
      .ok (.directives [⟨.encrypt, "aes"⟩, ⟨.decrypt, "aes"⟩, ⟨.mask, "name"⟩]) := by cbv
  have hmasked : ofAttributes ([emptyGuard, bareGuard, maskGuard].filter (!·.isBare)) =
      .ok (.directives [⟨.mask, "name"⟩]) := by cbv
  have hlists : ¬ BareThenEmpty [maskGuard, emptyGuard, storeGuard] := by
    intro h
    have hbare := h.subset List.mem_cons_self
    simp [maskGuard, emptyGuard, storeGuard] at hbare
  refine ⟨?_, ?_, ?_⟩
  · exact (ofAttributes_perm (List.reverse_perm [maskGuard, emptyGuard, storeGuard])).1 _ hstored hlists
  · exact ((ofAttributes_perm (.swap bareGuard emptyGuard [])).2.1 .nested rfl (.refl _)).2
  · exact ((ofAttributes_perm (.refl _)).2.2.1 (by decide) ⟨_, hmasked⟩).mpr
      (.inl (List.cons_ne_nil _ _))

open RecordPrivacy.Declaration.Sample in
/-- An empty list and a guard that stands alone: in one order they make a nested record, in the other
they are said to contradict each other, though no directive is present. -/
theorem Strategy.order_matters : [emptyGuard, bareGuard].Perm [bareGuard, emptyGuard] ∧
    entriesOf [bareGuard, emptyGuard] = [] ∧
    ofAttributes [emptyGuard, bareGuard] = .ok .nested ∧
    ofAttributes [bareGuard, emptyGuard] = .error .nestedWithDirectives :=
  ⟨.swap _ _ _, rfl, rfl, rfl⟩

end RecordPrivacy.Declaration
