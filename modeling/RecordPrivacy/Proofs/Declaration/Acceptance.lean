import RecordPrivacy.Proofs.Declaration.Directives
import RecordPrivacy.Sample.Person

/-! Which attributes a field may have.

After a guard that stands alone no other guard may follow, and none that came before it may have said
anything. So what was gathered in the end tells which guards there are: lists only, with a directive
for each entry, or one that stands alone among lists that are empty (`hears_lists`, `hears_bare`).
`ofAttributes_exact` says for each strategy when attributes ask for it, and that whatever is amiss
with attributes (`Defect`) has them refused. -/
namespace RecordPrivacy.Declaration

variable {attributes : List Attribute}

/-- Every guard is a list, and has clauses of boundaries only. -/
def Listed (attributes : List Attribute) : Prop :=
  ∀ given ∈ attributes, given.name = some "guard" →
    ∃ inside, given.content = .list inside ∧ ∀ clause ∈ clausesOf inside, Shaped clause

/-- Every guard is a list in which there is nothing. -/
def Silent (attributes : List Attribute) : Prop :=
  ∀ given ∈ attributes, given.name = some "guard" → given.content = .list []

/-- One guard stands alone, after lists in which there is nothing; it is the last of the guards. -/
def Alone (attributes : List Attribute) : Prop :=
  ∃ before after, attributes = before ++ ⟨some "guard", .bare⟩ :: after ∧ Silent before ∧
    ∀ given ∈ after, given.name ≠ some "guard"

/-! ### Entries -/

theorem entriesOf_cons (given : Attribute) (rest : List Attribute) :
    entriesOf (given :: rest) = given.clauses.flatMap entriesIn ++ entriesOf rest := by
  rw [entriesOf, entriesOf, List.flatMap_cons, List.flatMap_append]

theorem entriesOf_append (before after : List Attribute) :
    entriesOf (before ++ after) = entriesOf before ++ entriesOf after := by
  rw [entriesOf, List.flatMap_append, List.flatMap_append, entriesOf, entriesOf]

theorem Attribute.clauses_other {given : Attribute} (h : given.name ≠ some "guard") :
    given.clauses = [] := by
  obtain ⟨name, content⟩ := given
  cases content with
  | list inside => exact if_neg h
  | _ => rfl

theorem Attribute.clauses_list (inside : List Tree) :
    Attribute.clauses ⟨some "guard", .list inside⟩ = clausesOf inside := by
  rw [Attribute.clauses, if_pos rfl]

theorem Shaped.entriesIn_ne_nil {clause : List Tree} (h : Shaped clause) : entriesIn clause ≠ [] := by
  obtain ⟨boundary, inside, rfl, hne⟩ := h
  rw [entriesIn, Ne, List.map_eq_nil_iff]
  exact clausesOf_ne_nil hne

/-- Clauses of boundaries have entries. -/
theorem eq_nil_of_entries {inside : List Tree} (shaped : ∀ clause ∈ clausesOf inside, Shaped clause)
    (h : (clausesOf inside).flatMap entriesIn = []) : inside = [] := by
  by_contra hne
  obtain ⟨clause, later, hclauses⟩ := List.exists_cons_of_ne_nil (clausesOf_ne_nil hne)
  have hclause : clause ∈ clausesOf inside := hclauses ▸ List.mem_cons_self
  exact (shaped clause hclause).entriesIn_ne_nil (List.flatMap_eq_nil_iff.mp h clause hclause)

theorem length_of_adds {entries : List Entry} {found next : List Directive}
    (h : Through Entry.Adds found entries next) :
    next.length = found.length + entries.length := by
  induction entries generalizing found with
  | nil =>
    cases h
    rfl
  | cons entry entries ih =>
    obtain ⟨mid, ⟨directive, -, -, rfl⟩, hrest⟩ := h
    rw [ih hrest, List.length_append, List.length_cons, List.length_cons, List.length_nil]
    omega

/-- Where nothing is found in the end there was nothing. -/
theorem nil_of_adds {entries : List Entry} {found : List Directive}
    (h : Through Entry.Adds found entries []) : found = [] ∧ entries = [] := by
  have hlength := length_of_adds h
  rw [List.length_nil] at hlength
  exact ⟨List.length_eq_zero_iff.mp (by omega), List.length_eq_zero_iff.mp (by omega)⟩

/-- Silent guards are those that are lists without entries. -/
theorem silent_iff : Silent attributes ↔ Listed attributes ∧ entriesOf attributes = [] := by
  constructor
  · intro h
    refine ⟨fun given hgiven hname => ⟨[], h given hgiven hname, fun _ hc => nomatch hc⟩, ?_⟩
    rw [entriesOf, List.flatMap_eq_nil_iff]
    intro clause hclause
    obtain ⟨⟨name, content⟩, hgiven, hclause⟩ := List.mem_flatMap.mp hclause
    by_cases hname : name = some "guard"
    · have hcontent := h _ hgiven hname
      subst hname
      cases hcontent
      rw [Attribute.clauses_list] at hclause
      cases hclause
    · rw [Attribute.clauses_other hname] at hclause
      cases hclause
  · intro h
    obtain ⟨listed, hnone⟩ := h
    intro given hgiven hname
    obtain ⟨inside, hcontent, shaped⟩ := listed given hgiven hname
    obtain ⟨name, content⟩ := given
    cases hname
    cases hcontent
    rw [entriesOf, List.flatMap_eq_nil_iff] at hnone
    rw [eq_nil_of_entries shaped]
    refine List.flatMap_eq_nil_iff.mpr fun clause hclause => hnone clause ?_
    exact List.mem_flatMap.mpr ⟨_, hgiven, (Attribute.clauses_list inside).symm ▸ hclause⟩

/-! ### What was gathered in the end -/

namespace Gathered
variable {found next : List Directive}

/-- After a guard that stands alone no other may follow. -/
theorem hears_after {stop : Gathered} : Through Hears ⟨true, found⟩ attributes stop ↔
    stop = ⟨true, found⟩ ∧ ∀ given ∈ attributes, given.name ≠ some "guard" := by
  induction attributes with
  | nil => simp [Through]
  | cons given rest ih =>
    rw [List.forall_mem_cons]
    constructor
    · intro h
      obtain ⟨mid, hmid, hrest⟩ := h
      cases hmid with
      | other hother =>
        obtain ⟨hstop, hothers⟩ := ih.mp hrest
        exact ⟨hstop, hother, hothers⟩
    · intro h
      obtain ⟨hstop, hother, hothers⟩ := h
      exact ⟨_, .other hother, ih.mpr ⟨hstop, hothers⟩⟩

/-- Without a guard that stands alone all are lists, and their entries are added one by one. -/
theorem hears_lists : Through Hears ⟨false, found⟩ attributes ⟨false, next⟩ ↔
    Listed attributes ∧ Through Entry.Adds found (entriesOf attributes) next := by
  induction attributes generalizing found with
  | nil => simp [Through, Listed, entriesOf]
  | cons given rest ih =>
    rw [Listed, List.forall_mem_cons, entriesOf_cons, through_append]
    constructor
    · intro h
      obtain ⟨mid, hmid, hrest⟩ := h
      cases hmid with
      | other hother =>
        obtain ⟨hlisted, hadds⟩ := ih.mp hrest
        rw [Attribute.clauses_other hother]
        exact ⟨⟨fun hname => absurd hname hother, hlisted⟩, found, rfl, hadds⟩
      | bare =>
        obtain ⟨hstop, -⟩ := hears_after.mp hrest
        cases hstop
      | @list _ here inside hshaped hadds =>
        obtain ⟨hlisted, hlater⟩ := ih.mp hrest
        rw [Attribute.clauses_list]
        exact ⟨⟨fun _ => ⟨inside, rfl, hshaped⟩, hlisted⟩, here, hadds, hlater⟩
    · intro h
      obtain ⟨⟨hgiven, hlisted⟩, mid, hadds, hlater⟩ := h
      by_cases hname : given.name = some "guard"
      · obtain ⟨inside, hcontent, hshaped⟩ := hgiven hname
        obtain ⟨name, content⟩ := given
        cases hname
        cases hcontent
        rw [Attribute.clauses_list] at hadds
        exact ⟨⟨false, mid⟩, .list hshaped hadds, ih.mpr ⟨hlisted, hlater⟩⟩
      · rw [Attribute.clauses_other hname] at hadds
        cases hadds
        exact ⟨⟨false, found⟩, .other hname, ih.mpr ⟨hlisted, hlater⟩⟩

theorem hears_silent : Through Hears ⟨false, []⟩ attributes ⟨false, []⟩ ↔ Silent attributes := by
  rw [hears_lists, silent_iff]
  refine and_congr_right fun _ => ⟨fun h => (nil_of_adds h).2, fun h => ?_⟩
  rw [h]
  rfl

/-- A guard that stands alone comes after silent ones, and is the last. -/
theorem hears_bare : Through Hears ⟨false, found⟩ attributes ⟨true, next⟩ ↔
    found = [] ∧ next = [] ∧ Alone attributes := by
  constructor
  · intro h
    induction attributes generalizing found with
    | nil => cases h
    | cons given rest ih =>
      obtain ⟨mid, hmid, hrest⟩ := h
      cases hmid with
      | other hother =>
        obtain ⟨hfound, hnext, before, after, rfl, hsilent, hafter⟩ := ih hrest
        refine ⟨hfound, hnext, given :: before, after, rfl, ?_, hafter⟩
        exact List.forall_mem_cons.mpr ⟨fun hname => absurd hname hother, hsilent⟩
      | bare =>
        obtain ⟨hstop, hafter⟩ := hears_after.mp hrest
        cases hstop
        exact ⟨rfl, rfl, [], rest, rfl, fun _ h => (nomatch h), hafter⟩
      | @list _ _ inside hshaped hadds =>
        obtain ⟨rfl, hnext, before, after, rfl, hsilent, hafter⟩ := ih hrest
        obtain ⟨hfound, hnone⟩ := nil_of_adds hadds
        refine ⟨hfound, hnext, _ :: before, after, rfl, ?_, hafter⟩
        rw [eq_nil_of_entries hshaped hnone]
        exact List.forall_mem_cons.mpr ⟨fun _ => rfl, hsilent⟩
  · intro h
    obtain ⟨rfl, rfl, before, after, rfl, hsilent, hafter⟩ := h
    exact through_append.mpr ⟨_, hears_silent.mpr hsilent, _, .bare, hears_after.mpr ⟨rfl, hafter⟩⟩

end Gathered

/-! ### Strategies -/

/-- The attributes say the directives: every guard is a list of boundaries, every entry spells a
directive, and no action comes twice. -/
structure Bears (attributes : List Attribute) (directives : List Directive) : Prop where
  listed : Listed attributes
  spelled : List.Forall₂ Entry.Spells (entriesOf attributes) directives
  distinct : (directives.map Directive.action).Nodup

theorem bears_iff {directives : List Directive} : Bears attributes directives ↔
    Through Gathered.Hears ⟨false, []⟩ attributes ⟨false, directives⟩ := by
  have hnone : (([] : List Directive).map Directive.action).Nodup := List.nodup_nil
  rw [Gathered.hears_lists, through_adds_iff hnone]
  constructor
  · intro h
    exact ⟨h.listed, directives, h.spelled, rfl, h.distinct⟩
  · intro h
    obtain ⟨listed, _, spelled, rfl, distinct⟩ := h
    exact ⟨listed, spelled, distinct⟩

namespace Strategy

theorem ofAttributes_ok_iff {strategy : Strategy} : ofAttributes attributes = .ok strategy ↔
    ∃ gathered, Through Gathered.Hears ⟨false, []⟩ attributes gathered ∧
      gathered.strategy = strategy := by
  simp only [← Gathered.addAll_ok_iff]
  rw [ofAttributes, ofGuards]
  cases Gathered.addAll ⟨false, []⟩ (Guard.ofField attributes) <;> simp [Except.map]

theorem directives_iff {directives : List Directive} :
    ofAttributes attributes = .ok (.directives directives) ↔
      Bears attributes directives ∧ directives ≠ [] := by
  rw [ofAttributes_ok_iff, bears_iff]
  constructor
  · intro h
    obtain ⟨⟨isNested, found⟩, hheard, hstrategy⟩ := h
    cases isNested with
    | true => cases hstrategy
    | false =>
      cases found with
      | nil => cases hstrategy
      | cons first rest =>
        cases hstrategy
        exact ⟨hheard, List.cons_ne_nil _ _⟩
  · intro h
    obtain ⟨hheard, hne⟩ := h
    refine ⟨_, hheard, ?_⟩
    rw [Gathered.strategy, if_neg Bool.false_ne_true, if_neg (by simpa using hne)]

theorem untouched_iff : ofAttributes attributes = .ok .untouched ↔ Silent attributes := by
  rw [ofAttributes_ok_iff, ← Gathered.hears_silent]
  constructor
  · intro h
    obtain ⟨⟨isNested, found⟩, hheard, hstrategy⟩ := h
    cases isNested with
    | true => cases hstrategy
    | false =>
      cases found with
      | nil => exact hheard
      | cons first rest => cases hstrategy
  · intro h
    exact ⟨_, h, rfl⟩

theorem nested_iff : ofAttributes attributes = .ok .nested ↔ Alone attributes := by
  rw [ofAttributes_ok_iff]
  constructor
  · intro h
    obtain ⟨⟨isNested, found⟩, hheard, hstrategy⟩ := h
    cases isNested with
    | true => exact (Gathered.hears_bare.mp hheard).2.2
    | false => cases found <;> cases hstrategy
  · intro h
    exact ⟨⟨true, []⟩, Gathered.hears_bare.mpr ⟨rfl, rfl, h⟩, rfl⟩

end Strategy

/-! ### What is amiss -/

/-- The attribute is a guard that stands alone. -/
def Attribute.isBare : Attribute → Bool
  | ⟨name, .bare⟩ => name = some "guard"
  | _ => false

/-- Something that is amiss with the attributes of a field, wherever it stands. -/
inductive Defect (attributes : List Attribute) : Prop
  /-- A clause does not start with a boundary and parentheses. -/
  | unknownBoundary {inside clause : List Tree} : ⟨some "guard", .list inside⟩ ∈ attributes →
      clause ∈ clausesOf inside → (∀ (boundary : Boundary) parts rest,
        clause ≠ .word boundary.text :: .group .parenthesis parts :: rest) → Defect attributes
  /-- An entry does not start with an action of its boundary and an equals sign. -/
  | invalidPair {entry : Entry} : entry ∈ entriesOf attributes →
      (∀ (action : Action) joined rest, entry.boundary = action.boundary.text →
        entry.content ≠ .word action.text :: .sign '=' joined :: rest) → Defect attributes
  /-- What follows the action of an entry is not an equals sign and a text. -/
  | parameter {entry : Entry} : entry ∈ entriesOf attributes →
      (∀ joined spelling text,
        entry.content.tail ≠ [.sign '=' joined, .literal spelling (some text)]) → Defect attributes
  /-- Two entries start with one action. -/
  | repeated {first second : Entry} {i j : Nat} {action : Action} : i < j →
      (entriesOf attributes)[i]? = some first → (entriesOf attributes)[j]? = some second →
      first.content.head? = some (.word action.text) →
      second.content.head? = some (.word action.text) → Defect attributes
  | value : ⟨some "guard", .value⟩ ∈ attributes → Defect attributes
  | bareTwice : 2 ≤ attributes.countP Attribute.isBare → Defect attributes
  /-- One guard stands alone, and in the list of another there is something. -/
  | bareAndList {inside : List Tree} : ⟨some "guard", .bare⟩ ∈ attributes →
      ⟨some "guard", .list inside⟩ ∈ attributes → inside ≠ [] → Defect attributes

/-- What holds of attributes that are not refused. -/
structure Sane (attributes : List Attribute) : Prop where
  shaped : ∀ inside, ⟨some "guard", .list inside⟩ ∈ attributes → ∀ clause ∈ clausesOf inside,
    Shaped clause
  spelled : ∃ directives, List.Forall₂ Entry.Spells (entriesOf attributes) directives ∧
    (directives.map Directive.action).Nodup
  unvalued : ⟨some "guard", .value⟩ ∉ attributes
  once : attributes.countP Attribute.isBare ≤ 1
  apart : ⟨some "guard", .bare⟩ ∈ attributes → ∀ inside,
    ⟨some "guard", .list inside⟩ ∈ attributes → inside = []

theorem Attribute.isBare_iff {given : Attribute} :
    given.isBare = true ↔ given.name = some "guard" ∧ given.content = .bare := by
  obtain ⟨name, content⟩ := given
  cases content <;> simp [isBare]

theorem Bears.sane {directives : List Directive} (h : Bears attributes directives) :
    Sane attributes := by
  have hbare : ∀ given ∈ attributes, ¬ given.isBare = true := by
    intro given hgiven hbare
    obtain ⟨hname, hcontent⟩ := Attribute.isBare_iff.mp hbare
    obtain ⟨inside, hlist, -⟩ := h.listed given hgiven hname
    cases hcontent.symm.trans hlist
  refine ⟨?_, ⟨directives, h.spelled, h.distinct⟩, ?_, ?_, ?_⟩
  · intro inside hmem
    obtain ⟨_, hlist, hshaped⟩ := h.listed _ hmem rfl
    cases hlist
    exact hshaped
  · intro hmem
    obtain ⟨_, hlist, -⟩ := h.listed _ hmem rfl
    cases hlist
  · rw [List.countP_eq_zero.mpr hbare]
    exact Nat.zero_le 1
  · intro hmem
    exact absurd rfl (hbare _ hmem)

/-- Of guards among which one stands alone, every other is silent. -/
theorem Alone.content {given : Attribute} (h : Alone attributes) (hgiven : given ∈ attributes)
    (hname : given.name = some "guard") : given.content = .bare ∨ given.content = .list [] := by
  obtain ⟨before, after, rfl, hsilent, hafter⟩ := h
  rw [List.mem_append, List.mem_cons] at hgiven
  rcases hgiven with hbefore | rfl | hlater
  · exact .inr (hsilent given hbefore hname)
  · exact .inl rfl
  · exact absurd hname (hafter given hlater)

theorem Alone.count (h : Alone attributes) : attributes.countP Attribute.isBare = 1 := by
  obtain ⟨before, after, rfl, hsilent, hafter⟩ := h
  have hbefore : before.countP Attribute.isBare = 0 := by
    refine List.countP_eq_zero.mpr fun given hgiven hbare => ?_
    obtain ⟨hname, hcontent⟩ := Attribute.isBare_iff.mp hbare
    cases hcontent.symm.trans (hsilent given hgiven hname)
  have hlater : after.countP Attribute.isBare = 0 :=
    List.countP_eq_zero.mpr fun given hgiven hbare =>
      hafter given hgiven (Attribute.isBare_iff.mp hbare).1
  rw [List.countP_append, List.countP_cons, hbefore, hlater]
  rfl

theorem Alone.entries (h : Alone attributes) : entriesOf attributes = [] := by
  obtain ⟨before, after, rfl, hsilent, hafter⟩ := h
  have hlater : Silent after := fun given hgiven hname => absurd hname (hafter given hgiven)
  rw [entriesOf_append, entriesOf_cons, (silent_iff.mp hsilent).2, (silent_iff.mp hlater).2]
  rfl

theorem Alone.sane (h : Alone attributes) : Sane attributes := by
  have hempty : ∀ inside, ⟨some "guard", .list inside⟩ ∈ attributes → inside = [] := by
    intro inside hmem
    rcases h.content hmem rfl with hbare | hlist
    · cases hbare
    · cases hlist
      rfl
  refine ⟨?_, ⟨[], h.entries ▸ .nil, List.nodup_nil⟩, ?_, Nat.le_of_eq h.count, fun _ => hempty⟩
  · intro inside hmem clause hclause
    rw [hempty inside hmem] at hclause
    cases hclause
  · intro hmem
    rcases h.content hmem rfl with hbare | hlist
    · cases hbare
    · cases hlist

theorem Strategy.sane_of_ok {strategy : Strategy} (h : ofAttributes attributes = .ok strategy) :
    Sane attributes := by
  obtain ⟨⟨isNested, found⟩, hheard, -⟩ := ofAttributes_ok_iff.mp h
  cases isNested with
  | true => exact (Gathered.hears_bare.mp hheard).2.2.sane
  | false => exact (bears_iff.mpr hheard).sane

theorem Entry.Spells.action_eq {entry : Entry} {directive : Directive} {action : Action}
    (h : entry.Spells directive) (hhead : entry.content.head? = some (.word action.text)) :
    directive.action = action := by
  obtain ⟨named, parameter, spelling, joined⟩ := h
  exact Action.text_injective (by simpa using hhead)

theorem Sane.spells {entry : Entry} (h : Sane attributes) (hentry : entry ∈ entriesOf attributes) :
    ∃ directive, entry.Spells directive := by
  obtain ⟨directives, hspelled, -⟩ := h.spelled
  obtain ⟨directive, -, hspells⟩ := forall₂_mem_left hspelled hentry
  exact ⟨directive, hspells⟩

theorem Defect.not_sane (h : Defect attributes) : ¬ Sane attributes := by
  intro sane
  cases h with
  | unknownBoundary hmem hclause hno =>
    obtain ⟨boundary, inside, rfl, -⟩ := sane.shaped _ hmem _ hclause
    exact hno boundary inside [] rfl
  | invalidPair hentry hno =>
    obtain ⟨directive, hspells⟩ := sane.spells hentry
    cases hspells with
    | intro action parameter spelling joined => exact hno action joined _ rfl rfl
  | parameter hentry hno =>
    obtain ⟨directive, hspells⟩ := sane.spells hentry
    cases hspells with
    | intro action parameter spelling joined => exact hno joined spelling parameter rfl
  | @repeated first second i j action hlt hleft hright hfirst hsecond =>
    obtain ⟨directives, hspelled, hdistinct⟩ := sane.spelled
    obtain ⟨hlength, hget⟩ := List.forall₂_iff_get.mp hspelled
    obtain ⟨hi, rfl⟩ := List.getElem?_eq_some_iff.mp hleft
    obtain ⟨hj, rfl⟩ := List.getElem?_eq_some_iff.mp hright
    have hsame := ((hget i hi (hlength ▸ hi)).action_eq hfirst).trans
      ((hget j hj (hlength ▸ hj)).action_eq hsecond).symm
    rw [List.Nodup, List.pairwise_map] at hdistinct
    exact List.pairwise_iff_getElem.mp hdistinct i j (hlength ▸ hi) (hlength ▸ hj) hlt hsame
  | value hmem => exact sane.unvalued hmem
  | bareTwice htwice => exact absurd sane.once (Nat.not_le_of_lt htwice)
  | bareAndList hbare hlist hne => exact hne (sane.apart hbare _ hlist)

/-- **What the attributes of a field ask for.** They ask for directives just if every guard is a list of
boundaries and every entry spells a directive, of an action of its own: then for these directives,
one for each entry, as they are written. They ask for nothing just if every guard is an empty list.
They ask for a nested record only if one guard stands alone and every other is an empty list. All
else is refused: whatever is amiss with them, wherever it stands, has them refused. -/
theorem Strategy.ofAttributes_exact (attributes : List Attribute) :
    (∀ directives, ofAttributes attributes = .ok (.directives directives) ↔
      Bears attributes directives ∧ directives ≠ []) ∧
    (ofAttributes attributes = .ok .untouched ↔ Silent attributes) ∧
    (ofAttributes attributes = .ok .nested → attributes.countP Attribute.isBare = 1 ∧
      entriesOf attributes = [] ∧ ∀ given ∈ attributes, given.name = some "guard" →
        given.content = .bare ∨ given.content = .list []) ∧
    (Defect attributes → ∃ e, ofAttributes attributes = .error e) := by
  refine ⟨fun directives => directives_iff, untouched_iff, fun h => ?nested, fun defect => ?defect⟩
  case nested =>
    have alone := nested_iff.mp h
    exact ⟨alone.count, alone.entries, fun given => alone.content⟩
  case defect =>
    cases h : ofAttributes attributes with
    | error e => exact ⟨e, rfl⟩
    | ok strategy => exact absurd (sane_of_ok h) defect.not_sane

/-- The guard that asks for a field to be stored encrypted. -/
def Sample.storeGuard : Attribute :=
  ⟨some "guard", .list [.word "store", .group .parenthesis
      [.word "encrypt", .sign '=' false, .literal "\"aes\"" (some "aes")], .sign ',' false,
    .word "load", .group .parenthesis
      [.word "decrypt", .sign '=' false, .literal "\"aes\"" (some "aes"), .sign ',' false]]⟩

open RecordPrivacy.Declaration.Sample in
/-- A field that is stored encrypted and sent masked, and what becomes of it when it is said to be a
nested record too. -/
theorem Strategy.storeGuard_exact :
    ofAttributes [⟨some "doc", .value⟩, storeGuard, maskGuard] =
        .ok (.directives [⟨.encrypt, "aes"⟩, ⟨.decrypt, "aes"⟩, ⟨.mask, "name"⟩]) ∧
      ∃ e, ofAttributes [storeGuard, bareGuard, maskGuard] = .error e := by
  have bears : Bears [⟨some "doc", .value⟩, storeGuard, maskGuard]
      [⟨.encrypt, "aes"⟩, ⟨.decrypt, "aes"⟩, ⟨.mask, "name"⟩] := by
    refine ⟨?listed, ?spelled, by decide⟩
    case listed =>
      simp only [Listed, List.forall_mem_cons]
      refine ⟨nofun, fun _ => ⟨_, rfl, ?_⟩, fun _ => ⟨_, rfl, ?_⟩, nofun⟩
      · exact List.forall_mem_cons.mpr ⟨⟨.store, _, rfl, List.cons_ne_nil _ _⟩,
          List.forall_mem_singleton.mpr ⟨.load, _, rfl, List.cons_ne_nil _ _⟩⟩
      · exact List.forall_mem_singleton.mpr ⟨.send, _, rfl, List.cons_ne_nil _ _⟩
    case spelled =>
      exact .cons (.intro .encrypt _ _ _) (.cons (.intro .decrypt _ _ _)
        (.cons (.intro .mask _ _ _) .nil))
  have defect : Defect [storeGuard, bareGuard, maskGuard] :=
    .bareAndList (List.mem_cons_of_mem _ List.mem_cons_self) List.mem_cons_self (List.cons_ne_nil _ _)
  exact ⟨((ofAttributes_exact _).1 _).mpr ⟨bears, List.cons_ne_nil _ _⟩,
    (ofAttributes_exact _).2.2.2 defect⟩

end RecordPrivacy.Declaration
