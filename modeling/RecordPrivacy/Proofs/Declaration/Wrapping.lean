import Mathlib.Data.List.Forall2
import RecordPrivacy.Declaration.Outline
import RecordPrivacy.Proofs.Declaration.Mentions
import RecordPrivacy.Proofs.Lists
import RecordPrivacy.Sample.Person

/-! Types in parentheses.

A macro leaves the types that it is given in groups, and parentheses may stand around any type; neither
means anything. What a type is recognised by is its last segment, which is looked for behind all
wrappers, so that a leaf has the same shape and a nested record is held in the same way, whatever
wrappers there are (`Wrapping.readAlike`). Type parameters are not looked for behind wrappers: none is
found that is not there, but one that occurs in wrappers only is missed
(`Outline.mem_guardedParameters`). So a record
is outlined alike with and without wrappers as long as they hide no type parameter of a nested record
(`Outline.ofFields_wrapping`). -/
namespace RecordPrivacy.Declaration

/-! ### Wrapping -/

/-- Some stretches of the trees stand in parentheses in the other trees. -/
inductive Parenthesized : List Tree → List Tree → Prop
  | nil : Parenthesized [] []
  | cons (tree : Tree) {rest rest' : List Tree} : Parenthesized rest rest' →
      Parenthesized (tree :: rest) (tree :: rest')
  | inside (delimiter : Delimiter) {inner inner' rest rest' : List Tree} :
      Parenthesized inner inner' → Parenthesized rest rest' →
      Parenthesized (.group delimiter inner :: rest) (.group delimiter inner' :: rest')
  | wrap {inner inner' rest rest' : List Tree} :
      Parenthesized inner inner' → Parenthesized rest rest' →
      Parenthesized (inner ++ rest) (.group .parenthesis inner' :: rest')

mutual

/-- The second type is the first with wrappers put around it, or around types in it at any depth; of
what is kept as it is written, around stretches of trees. -/
inductive TypeExpr.Wrapping : TypeExpr → TypeExpr → Prop
  | parenthesized {t u : TypeExpr} : t.Wrapping u → t.Wrapping (.parenthesized u)
  | grouped {t u : TypeExpr} : t.Wrapping u → t.Wrapping (.grouped u)
  | inParentheses {t u : TypeExpr} : t.Wrapping u →
      TypeExpr.Wrapping (.parenthesized t) (.parenthesized u)
  | inGroup {t u : TypeExpr} : t.Wrapping u → TypeExpr.Wrapping (.grouped t) (.grouped u)
  | path {qualified : Bool} {front front' : List Tree} {name : String} {a b : Arguments} :
      Parenthesized front front' → a.Wrapping b →
      TypeExpr.Wrapping (.path qualified front name a) (.path qualified front' name b)
  | sum {bounds bounds' : List Bound} {trailing trailing' : Bool} :
      Parenthesized (TypeExpr.sum bounds trailing).trees (TypeExpr.sum bounds' trailing').trees →
      TypeExpr.Wrapping (.sum bounds trailing) (.sum bounds' trailing')
  | other {trees trees' : List Tree} : Parenthesized trees trees' →
      TypeExpr.Wrapping (.other trees) (.other trees')

inductive Arguments.Wrapping : Arguments → Arguments → Prop
  | none : Arguments.Wrapping .none .none
  | angled {marked trailing : Bool} {as bs : List Argument} : ArgumentsWrapping as bs →
      Arguments.Wrapping (.angled marked as trailing) (.angled marked bs trailing)

inductive ArgumentsWrapping : List Argument → List Argument → Prop
  | nil : ArgumentsWrapping [] []
  | ofType {t u : TypeExpr} {as bs : List Argument} : t.Wrapping u → ArgumentsWrapping as bs →
      ArgumentsWrapping (.ofType t :: as) (.ofType u :: bs)
  | lifetime (name : String) {as bs : List Argument} : ArgumentsWrapping as bs →
      ArgumentsWrapping (.lifetime name :: as) (.lifetime name :: bs)
  | other {trees trees' : List Tree} {as bs : List Argument} : Parenthesized trees trees' →
      ArgumentsWrapping as bs → ArgumentsWrapping (.other trees :: as) (.other trees' :: bs)

end

/-! ### Last segments -/

theorem ArgumentsWrapping.types : ∀ {as bs : List Argument}, ArgumentsWrapping as bs →
    List.Forall₂ TypeExpr.Wrapping (as.filterMap Argument.type?) (bs.filterMap Argument.type?)
  | _, _, .nil => .nil
  | _, _, .ofType h rest => .cons h rest.types
  | _, _, .lifetime _ rest => rest.types
  | _, _, .other _ rest => rest.types

namespace Arguments.Wrapping
variable {a b : Arguments}

theorem types (h : a.Wrapping b) : List.Forall₂ TypeExpr.Wrapping a.types b.types := by
  cases h with
  | none => exact .nil
  | angled h => exact h.types

theorem isEmpty (h : a.Wrapping b) : b.isEmpty = a.isEmpty := by
  cases h with
  | none => rfl
  | angled h => cases h <;> rfl

end Arguments.Wrapping

namespace TypeExpr.Wrapping
variable {t u : TypeExpr}

/-- Behind wrappers there is the same last segment, with arguments that may be wrapped. -/
theorem lastSegment? : ∀ {t u : TypeExpr}, t.Wrapping u →
    Option.Rel (fun p q => q.1 = p.1 ∧ p.2.Wrapping q.2) t.lastSegment? u.lastSegment?
  | _, _, .parenthesized h => h.lastSegment?
  | _, _, .grouped h => h.lastSegment?
  | _, _, .inParentheses h => h.lastSegment?
  | _, _, .inGroup h => h.lastSegment?
  | .path false _ _ _, _, .path _ h => .some ⟨rfl, h⟩
  | .path true _ _ _, _, .path _ _ => .none
  | _, _, .sum _ => .none
  | _, _, .other _ => .none

theorem isBare (h : t.Wrapping u) (name : String) : u.isBare name = t.isBare name := by
  rw [TypeExpr.isBare, TypeExpr.isBare]
  have hsegment := h.lastSegment?
  generalize t.lastSegment? = p at hsegment
  generalize u.lastSegment? = q at hsegment
  cases hsegment with
  | none => rfl
  | some hpair =>
    obtain ⟨hname, harguments⟩ := hpair
    dsimp only
    rw [hname, harguments.isEmpty]

/-! ### Shapes and holdings -/

theorem containerShape? (name : String) {ts us : List TypeExpr}
    (h : List.Forall₂ TypeExpr.Wrapping ts us) :
    TypeExpr.containerShape? name us = TypeExpr.containerShape? name ts := by
  rcases h with _ | ⟨h₁, _ | ⟨h₂, _ | ⟨h₃, _ | ⟨h₄, h⟩⟩⟩⟩
  · rfl
  · by_cases hvec : name = "Vec"
    · subst hvec
      simp only [TypeExpr.containerShape?, h₁.isBare]
    · simp [TypeExpr.containerShape?, hvec]
  · by_cases hmap : name = "HashMap" ∨ name = "BTreeMap"
    · rcases hmap with rfl | rfl <;> simp only [TypeExpr.containerShape?, h₂.isBare]
    · obtain ⟨hhash, htree⟩ := not_or.mp hmap
      simp [TypeExpr.containerShape?, hhash, htree]
  · by_cases hmap : name = "HashMap"
    · subst hmap
      simp only [TypeExpr.containerShape?, h₂.isBare]
    · simp [TypeExpr.containerShape?, hmap]
  · simp [TypeExpr.containerShape?]

theorem leafShape? (h : t.Wrapping u) : u.leafShape? = t.leafShape? := by
  rw [TypeExpr.leafShape?, TypeExpr.leafShape?, h.isBare]
  have hsegment := h.lastSegment?
  generalize t.lastSegment? = p at hsegment
  generalize u.lastSegment? = q at hsegment
  cases hsegment with
  | none => rfl
  | some hpair =>
    obtain ⟨hname, harguments⟩ := hpair
    dsimp only
    rw [hname, containerShape? _ harguments.types]

/-- What is wrapped in the type that stands around it is found behind wrappers. -/
theorem unwrap? (h : t.Wrapping u) (wrapper : String) :
    Option.Rel TypeExpr.Wrapping (t.unwrap? wrapper) (u.unwrap? wrapper) := by
  rw [TypeExpr.unwrap?, TypeExpr.unwrap?]
  have hsegment := h.lastSegment?
  generalize t.lastSegment? = p at hsegment
  generalize u.lastSegment? = q at hsegment
  cases hsegment with
  | none => exact .none
  | @some p q hpair =>
    obtain ⟨hname, harguments⟩ := hpair
    dsimp only
    rw [hname]
    by_cases hwrapper : p.1 = wrapper
    · rw [if_pos hwrapper, if_pos hwrapper]
      have htypes := harguments.types
      generalize p.2.types = ts at htypes
      generalize q.2.types = us at htypes
      rcases htypes with _ | ⟨hfirst, _ | ⟨hsecond, hrest⟩⟩
      · exact .none
      · exact .some hfirst
      · exact .none
    · rw [if_neg hwrapper, if_neg hwrapper]
      exact .none

/-- A wrapped record is held in the same way, and is itself the record with wrappers. -/
theorem holding (h : t.Wrapping u) :
    u.holding.1 = t.holding.1 ∧ t.holding.2.Wrapping u.holding.2 := by
  rw [TypeExpr.holding, TypeExpr.holding]
  have hoption := h.unwrap? "Option"
  generalize t.unwrap? "Option" = p at hoption
  generalize u.unwrap? "Option" = q at hoption
  cases hoption with
  | some hinner =>
    dsimp only
    have hbox := hinner.unwrap? "Box"
    revert hbox
    generalize TypeExpr.unwrap? _ "Box" = p
    generalize TypeExpr.unwrap? _ "Box" = q
    intro hbox
    cases hbox with
    | some hrecord => exact ⟨rfl, hrecord⟩
    | none => exact ⟨rfl, hinner⟩
  | none =>
    dsimp only
    have hbox := h.unwrap? "Box"
    generalize t.unwrap? "Box" = p at hbox
    generalize u.unwrap? "Box" = q at hbox
    cases hbox with
    | some hrecord => exact ⟨rfl, hrecord⟩
    | none => exact ⟨rfl, h⟩

end TypeExpr.Wrapping

/-- Two types of a field that are read alike, the second with more wrappers. -/
structure TypeExpr.ReadAlike (t u : TypeExpr) : Prop where
  shape : u.leafShape? = t.leafShape?
  holding : u.holding.1 = t.holding.1
  record : t.holding.2.Wrapping u.holding.2

theorem TypeExpr.Wrapping.readAlike {t u : TypeExpr} (h : t.Wrapping u) : t.ReadAlike u :=
  ⟨h.leafShape?, h.holding.1, h.holding.2⟩

/-! ### Type parameters -/

section
variable {parameters : List String}

mutual

/-- Wrappers change nothing about what is mentioned, if one looks through them. -/
theorem TypeExpr.Wrapping.mentions_through : ∀ {t u : TypeExpr}, t.Wrapping u →
    u.mentions true parameters = t.mentions true parameters
  | _, _, .parenthesized h => h.mentions_through
  | _, _, .grouped h => h.mentions_through
  | _, _, .inParentheses h => h.mentions_through
  | _, _, .inGroup h => h.mentions_through
  | _, _, .path _ h => by rw [TypeExpr.mentions, TypeExpr.mentions, h.mentions_through]
  | _, _, .sum _ => rfl
  | _, _, .other _ => rfl

theorem Arguments.Wrapping.mentions_through : ∀ {a b : Arguments}, a.Wrapping b →
    b.mentions true parameters = a.mentions true parameters
  | _, _, .none => rfl
  | _, _, .angled h => h.mentions_through

theorem ArgumentsWrapping.mentions_through : ∀ {as bs : List Argument}, ArgumentsWrapping as bs →
    mentionsOf true parameters bs = mentionsOf true parameters as
  | _, _, .nil => rfl
  | _, _, .ofType h rest => by
    rw [mentionsOf, mentionsOf, h.mentions_through, rest.mentions_through]
  | _, _, .lifetime _ rest => rest.mentions_through
  | _, _, .other _ rest => rest.mentions_through

end

mutual

/-- More wrappers hide more. -/
theorem TypeExpr.Wrapping.mentions_open : ∀ {t u : TypeExpr}, t.Wrapping u →
    (u.mentions false parameters).Sublist (t.mentions false parameters)
  | _, _, .parenthesized _ => List.nil_sublist _
  | _, _, .grouped _ => List.nil_sublist _
  | _, _, .inParentheses _ => .slnil
  | _, _, .inGroup _ => .slnil
  | _, _, .path _ h => by
    rw [TypeExpr.mentions, TypeExpr.mentions]
    split
    · exact .slnil
    · exact h.mentions_open.append (.refl _)
  | _, _, .sum _ => .slnil
  | _, _, .other _ => .slnil

theorem Arguments.Wrapping.mentions_open : ∀ {a b : Arguments}, a.Wrapping b →
    (b.mentions false parameters).Sublist (a.mentions false parameters)
  | _, _, .none => .slnil
  | _, _, .angled h => h.mentions_open

theorem ArgumentsWrapping.mentions_open : ∀ {as bs : List Argument}, ArgumentsWrapping as bs →
    (mentionsOf false parameters bs).Sublist (mentionsOf false parameters as)
  | _, _, .nil => .slnil
  | _, _, .ofType h rest => h.mentions_open.append rest.mentions_open
  | _, _, .lifetime _ rest => rest.mentions_open
  | _, _, .other _ rest => rest.mentions_open

end

/-- Where wrappers hide no type parameter, they do not change what is collected. -/
theorem TypeExpr.Wrapping.collect {t u : TypeExpr} (h : t.Wrapping u) (hides : u.HidesNone parameters)
    (found : List String) : u.collect parameters found = t.collect parameters found := by
  have hopen : u.mentions false parameters = t.mentions false parameters := by
    refine h.mentions_open.antisymm ?_
    rw [hides, h.mentions_through]
    exact t.mentions_sublist
  rw [u.collect_eq, t.collect_eq, hopen]

end

/-! ### Fields -/

/-- The second field is the first with wrappers in its type. -/
structure PlacedField.Wrapping (p q : PlacedField) : Prop where
  index : q.index = p.index
  name : q.field.name = p.field.name
  strategy : q.strategy = p.strategy
  type : p.field.type.Wrapping q.field.type

/-- The second entry is the first, perhaps with wrappers in the type of the nested record. -/
inductive SchemaEntry.Wrapping : SchemaEntry → SchemaEntry → Prop
  | leaf (index : Nat) (name : String) (shape : Shape) (directives : List Directive) :
      Wrapping ⟨index, name, .leaf shape directives⟩ ⟨index, name, .leaf shape directives⟩
  | nested (index : Nat) (name : String) (optional : Bool) {record record' : TypeExpr} :
      record.Wrapping record' →
      Wrapping ⟨index, name, .nested optional record⟩ ⟨index, name, .nested optional record'⟩

namespace PlacedField.Wrapping
variable {p q : PlacedField}

theorem entry? (h : p.Wrapping q) : Option.Rel SchemaEntry.Wrapping p.entry? q.entry? := by
  unfold PlacedField.entry?
  rw [h.strategy, h.index, h.name]
  cases p.strategy with
  | untouched => exact .none
  | nested =>
    obtain ⟨hholding, hrecord⟩ := h.type.holding
    dsimp only
    rw [hholding]
    exact .some (.nested _ _ _ hrecord)
  | directives directives =>
    dsimp only
    rw [h.type.leafShape?]
    cases p.field.type.leafShape? with
    | none => exact .none
    | some shape => exact .some (.leaf _ _ _ _)

theorem arm? (h : p.Wrapping q) : q.arm? = p.arm? := by
  rw [PlacedField.arm?, PlacedField.arm?, h.strategy, h.index, h.name, h.type.leafShape?,
    h.type.holding.1]

theorem collect {parameters : List String} (h : p.Wrapping q)
    (hides : q.strategy = .nested → q.field.type.holding.2.HidesNone parameters)
    (found : List String) : q.collect parameters found = p.collect parameters found := by
  rw [PlacedField.collect, PlacedField.collect, h.strategy]
  cases hstrategy : p.strategy with
  | nested => exact h.type.holding.2.collect (hides (h.strategy.trans hstrategy)) found
  | _ => rfl

end PlacedField.Wrapping

/-! ### Outlines -/

section
variable {placed wrapped : List PlacedField}

theorem PlacedField.foldl_collect {parameters : List String}
    (h : List.Forall₂ PlacedField.Wrapping placed wrapped)
    (hides : ∀ q ∈ wrapped, q.strategy = .nested →
      q.field.type.holding.2.HidesNone parameters) (found : List String) :
    wrapped.foldl (PlacedField.collect parameters) found =
      placed.foldl (PlacedField.collect parameters) found := by
  induction h generalizing found with
  | nil => rfl
  | cons hfirst _ ih =>
    obtain ⟨hhides, hrest⟩ := List.forall_mem_cons.mp hides
    rw [List.foldl_cons, List.foldl_cons, hfirst.collect hhides, ih hrest]

theorem PlacedField.filterMap_arm? (h : List.Forall₂ PlacedField.Wrapping placed wrapped) :
    wrapped.filterMap PlacedField.arm? = placed.filterMap PlacedField.arm? := by
  induction h with
  | nil => rfl
  | cons hfirst _ ih => rw [List.filterMap_cons, List.filterMap_cons, hfirst.arm?, ih]

namespace Outline
variable (library : String) (item : Item) (overrides : List Action)

/-- **Wrappers around types are not read.** With wrappers in the types of its fields a record has leaves
of the same shapes, nested records that are held in the same way, and the same arms and entries but for
the wrappers themselves. No parameter has to be guarded on account of wrappers: those that have to be
are the ones that a nested record mentions outside them. Unless wrappers hide a parameter of a nested
record, these are the same, and the same bounds are added. -/
theorem ofFields_wrapping (h : List.Forall₂ PlacedField.Wrapping placed wrapped) :
    List.Forall₂ (fun p q => p.field.type.ReadAlike q.field.type) placed wrapped ∧
    (ofFields library item overrides wrapped).arms = (ofFields library item overrides placed).arms ∧
    List.Forall₂ SchemaEntry.Wrapping (ofFields library item overrides placed).entries
      (ofFields library item overrides wrapped).entries ∧
    (∀ name ∈ (ofFields library item overrides wrapped).guardedParameters,
      name ∈ (ofFields library item overrides placed).guardedParameters) ∧
    (∀ name, name ∈ (ofFields library item overrides wrapped).guardedParameters ↔
      ∃ q ∈ wrapped, q.strategy = .nested ∧
        name ∈ q.field.type.holding.2.mentions false item.generics.typeNames) ∧
    ((∀ q ∈ wrapped, q.strategy = .nested →
        q.field.type.holding.2.HidesNone item.generics.typeNames) →
      (ofFields library item overrides wrapped).guardedParameters =
          (ofFields library item overrides placed).guardedParameters ∧
        (ofFields library item overrides wrapped).accessHeader =
          (ofFields library item overrides placed).accessHeader ∧
        (ofFields library item overrides wrapped).guardedHeader =
          (ofFields library item overrides placed).guardedHeader) := by
  refine ⟨h.imp fun _ _ hfield => hfield.type.readAlike, PlacedField.filterMap_arm? h,
    List.rel_filterMap (fun _ _ hfield => hfield.entry?) h, ?subset,
    fun _ => mem_guardedParameters library item overrides, ?same⟩
  case subset =>
    intro name hname
    obtain ⟨q, hq, hnested, hmention⟩ := (mem_guardedParameters library item overrides).mp hname
    obtain ⟨p, hp, hfield⟩ := forall₂_mem_right h hq
    exact (mem_guardedParameters library item overrides).mpr
      ⟨p, hp, hfield.strategy ▸ hnested, hfield.type.holding.2.mentions_open.subset hmention⟩
  case same =>
    intro hides
    have hcollect := PlacedField.foldl_collect h hides []
    simp only [ofFields, hcollect, and_self]

end Outline

end

/-! ### A record with a parameter -/

namespace Sample

/-- A nested record. -/
def innerField (type : TypeExpr) : PlacedField :=
  ⟨0, ⟨[bareGuard], "inner", type⟩, .nested⟩

/-- Names that are masked when they are sent. -/
def namesField (type : TypeExpr) : PlacedField :=
  ⟨1, ⟨[maskGuard], "names", type⟩, .directives [⟨.mask, "name"⟩]⟩

def holder : Item :=
  ⟨[], "Holder", ⟨[.type [] "T" []], false, [], false⟩, .record []⟩

def holderFields : List PlacedField :=
  [innerField (applied "Option" (applied "Box" (named "T"))),
    namesField (applied "Vec" (named "String"))]

/-- The same fields as a macro may leave them. -/
def holderWrapped : List PlacedField :=
  [innerField (.grouped (applied "Option" (.parenthesized (applied "Box" (named "T"))))),
    namesField (applied "Vec" (.parenthesized (named "String")))]

end Sample

namespace Outline
open RecordPrivacy.Declaration.Sample

/-- Around a box and around the items of a list wrappers change nothing: the parameter of the nested
record has to be guarded either way. -/
theorem holder_wrapped :
    (ofFields "fieldguard" holder [] holderWrapped).guardedHeader =
      (ofFields "fieldguard" holder [] holderFields).guardedHeader ∧
    (ofFields "fieldguard" holder [] holderWrapped).guardedParameters = ["T"] := by
  have hnamed : ∀ name, (named name).Wrapping (named name) := fun _ => .path .nil .none
  have happlied : ∀ name {t u : TypeExpr}, t.Wrapping u →
      (applied name t).Wrapping (applied name u) := fun _ _ _ h =>
    .path .nil (.angled (.ofType h .nil))
  have hinner : (innerField (applied "Option" (applied "Box" (named "T")))).Wrapping
      (innerField (.grouped (applied "Option" (.parenthesized (applied "Box" (named "T")))))) :=
    ⟨rfl, rfl, rfl, .grouped (happlied "Option" (.parenthesized (happlied "Box" (hnamed "T"))))⟩
  have hnames : (namesField (applied "Vec" (named "String"))).Wrapping
      (namesField (applied "Vec" (.parenthesized (named "String")))) :=
    ⟨rfl, rfl, rfl, happlied "Vec" (.parenthesized (hnamed "String"))⟩
  have hides : ∀ q ∈ holderWrapped, q.strategy = .nested →
      q.field.type.holding.2.HidesNone holder.generics.typeNames := by
    intro q hq _
    rcases List.mem_cons.mp hq with rfl | hq
    · rfl
    · rcases List.mem_singleton.mp hq with rfl
      rfl
  obtain ⟨-, -, -, -, -, hsame⟩ := ofFields_wrapping "fieldguard" holder []
    (show List.Forall₂ PlacedField.Wrapping holderFields holderWrapped from
      .cons hinner (.cons hnames .nil))
  obtain ⟨hparameters, -, hheader⟩ := hsame hides
  exact ⟨hheader, hparameters⟩

/-- In parentheses the parameter of a nested record is missed: it does not have to be guarded, and
without them it does. -/
theorem parenthesized_parameter_missed :
    (innerField (named "T")).Wrapping (innerField (.parenthesized (named "T"))) ∧
    (ofFields "fieldguard" holder [] [innerField (named "T")]).guardedParameters = ["T"] ∧
    (ofFields "fieldguard" holder [] [innerField (.parenthesized (named "T"))]).guardedParameters =
      [] :=
  ⟨⟨rfl, rfl, rfl, .parenthesized (.path .nil .none)⟩, rfl, rfl⟩

end Outline

end RecordPrivacy.Declaration
