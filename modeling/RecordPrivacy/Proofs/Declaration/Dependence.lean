import RecordPrivacy.Declaration.TreeReader.Path
import RecordPrivacy.Proofs.Declaration.Mentions

/-! What types depend on.

A type depends on a name that it is, or that is a type argument anywhere in it, unless a marker stands
around it (`TypeExpr.DependsOn`). Types that are built of names alone are searched to the end
(`TypeExpr.OfNames`): what a search adds to the parameters found are those that the type depends on and
that were not found before, each once (`TypeExpr.OfNames.collect_addsOnce`). Of a field the nested record
is searched, without the box or the option that holds it, and neither of these hides anything
(`TypeExpr.dependsOn_holding`). -/
namespace RecordPrivacy.Declaration

/-! ### Dependence -/

/-- The type is the name, perhaps with arguments, or a path that has an argument which depends on the
name; wrappers are looked through. A path called `PhantomData` is a marker, with arguments or without:
neither it nor what stands in it counts. -/
inductive TypeExpr.DependsOn (name : String) : TypeExpr → Prop
  | itself {arguments : Arguments} : name ≠ "PhantomData" →
      DependsOn name (.path false [] name arguments)
  | argument {qualified : Bool} {front : List Tree} {head : String} {arguments : Arguments}
      {type : TypeExpr} : head ≠ "PhantomData" → type ∈ arguments.types → DependsOn name type →
      DependsOn name (.path qualified front head arguments)
  | parenthesized {type : TypeExpr} : DependsOn name type → DependsOn name (.parenthesized type)
  | grouped {type : TypeExpr} : DependsOn name type → DependsOn name (.grouped type)

mutual

/-- The type is built of names: each is one segment, and its arguments are types that are built in this
way, lifetimes and constants. -/
inductive TypeExpr.OfNames : TypeExpr → Prop
  | path {name : String} {arguments : Arguments} : arguments.OfNames →
      TypeExpr.OfNames (.path false [] name arguments)

inductive Arguments.OfNames : Arguments → Prop
  | none : Arguments.OfNames .none
  | angled {marked trailing : Bool} {arguments : List Argument} : ArgumentsOfNames arguments →
      Arguments.OfNames (.angled marked arguments trailing)

inductive ArgumentsOfNames : List Argument → Prop
  | nil : ArgumentsOfNames []
  | ofType {type : TypeExpr} {rest : List Argument} : type.OfNames → ArgumentsOfNames rest →
      ArgumentsOfNames (.ofType type :: rest)
  | lifetime (name : String) {rest : List Argument} : ArgumentsOfNames rest →
      ArgumentsOfNames (.lifetime name :: rest)
  | constant {trees : List Tree} {rest : List Argument} : TreeReader.startsConstant trees = true →
      ArgumentsOfNames rest → ArgumentsOfNames (.other trees :: rest)

end

section
variable {name : String}

namespace TypeExpr
variable {type : TypeExpr}

theorem dependsOn_path {head : String} {arguments : Arguments} :
    (path false [] head arguments).DependsOn name ↔ head ≠ "PhantomData" ∧
      (name = head ∨ ∃ type ∈ arguments.types, type.DependsOn name) := by
  constructor
  · intro h
    cases h with
    | itself hname => exact ⟨hname, .inl rfl⟩
    | argument hhead hmem harg => exact ⟨hhead, .inr ⟨_, hmem, harg⟩⟩
  · intro h
    obtain ⟨hhead, rfl | ⟨type, hmem, harg⟩⟩ := h
    · exact .itself hhead
    · exact .argument hhead hmem harg

end TypeExpr

/-! ### What is found -/

variable {parameters : List String}

mutual

/-- A type that is built of names mentions the parameters that it depends on. -/
theorem TypeExpr.OfNames.mem_mentions : ∀ {type : TypeExpr}, type.OfNames →
    (name ∈ type.mentions false parameters ↔ name ∈ parameters ∧ type.DependsOn name)
  | .path _ _ head _, .path harguments => by
    rw [TypeExpr.mentions, TypeExpr.dependsOn_path]
    by_cases hmarker : head = "PhantomData"
    · simp [hmarker]
    · rw [if_neg hmarker, List.mem_append, harguments.mem_mentions, List.mem_filter,
        List.mem_singleton, decide_eq_true_eq]
      constructor
      · intro h
        rcases h with ⟨hparameter, hargument⟩ | ⟨rfl, hparameter⟩
        · exact ⟨hparameter, hmarker, .inr hargument⟩
        · exact ⟨hparameter, hmarker, .inl rfl⟩
      · intro h
        obtain ⟨hparameter, -, rfl | hargument⟩ := h
        · exact .inr ⟨rfl, hparameter⟩
        · exact .inl ⟨hparameter, hargument⟩

theorem Arguments.OfNames.mem_mentions : ∀ {arguments : Arguments}, arguments.OfNames →
    (name ∈ arguments.mentions false parameters ↔
      name ∈ parameters ∧ ∃ type ∈ arguments.types, type.DependsOn name)
  | _, .none => by simp [Arguments.mentions, Arguments.types]
  | _, .angled h => h.mem_mentions

theorem ArgumentsOfNames.mem_mentions : ∀ {arguments : List Argument}, ArgumentsOfNames arguments →
    (name ∈ mentionsOf false parameters arguments ↔
      name ∈ parameters ∧ ∃ type ∈ arguments.filterMap Argument.type?, type.DependsOn name)
  | _, .nil => by simp [mentionsOf]
  | .ofType type :: rest, .ofType htype hrest => by
    have htypes : (Argument.ofType type :: rest).filterMap Argument.type? =
        type :: rest.filterMap Argument.type? := rfl
    rw [mentionsOf, List.mem_append, htype.mem_mentions, hrest.mem_mentions, ← and_or_left, htypes,
      List.exists_mem_cons_iff]
  | _, .lifetime _ hrest => hrest.mem_mentions
  | _, .constant _ hrest => hrest.mem_mentions

end

/-- Searching a type that is built of names adds the parameters that it depends on. -/
theorem TypeExpr.OfNames.collect_addsOnce {type : TypeExpr} (h : type.OfNames) (found : List String) :
    AddsOnce (fun name => name ∈ parameters ∧ type.DependsOn name) found
      (type.collect parameters found) :=
  (type.collect_addsOnce found).congr fun _ => h.mem_mentions.symm

/-! ### Nested records -/

namespace TypeExpr

theorem unwrap?_eq_some {type inner : TypeExpr} {wrapper : String} :
    type.unwrap? wrapper = some inner ↔
      ∃ arguments, type.lastSegment? = some (wrapper, arguments) ∧ arguments.types = [inner] := by
  rw [unwrap?]
  constructor
  · intro h
    split at h
    · next head arguments hsegment =>
      split at h
      · next hhead =>
        subst hhead
        split at h
        · next hsingle =>
          cases h
          exact ⟨arguments, hsegment, hsingle⟩
        · cases h
      · cases h
    · cases h
  · intro h
    obtain ⟨arguments, hsegment, hsingle⟩ := h
    simp [hsegment, hsingle]

/-- What taking an option or a box off keeps holds of the nested record if it holds of the field's type. -/
theorem holding_keeps {P : TypeExpr → Prop} {type : TypeExpr} (h : P type)
    (kept : ∀ {outer inner : TypeExpr} {wrapper : String}, wrapper ∈ ["Option", "Box"] →
      outer.unwrap? wrapper = some inner → P outer → P inner) : P type.holding.2 := by
  unfold holding
  cases houter : type.unwrap? "Option" with
  | some inner =>
    have hinner : P inner := kept (by decide) houter h
    dsimp only
    cases hboxed : inner.unwrap? "Box" with
    | some record => exact kept (by decide) hboxed hinner
    | none => exact hinner
  | none =>
    dsimp only
    cases hboxed : type.unwrap? "Box" with
    | some record => exact kept (by decide) hboxed h
    | none => exact h

end TypeExpr

theorem ArgumentsOfNames.of_mem : ∀ {arguments : List Argument}, ArgumentsOfNames arguments →
    ∀ type ∈ arguments.filterMap Argument.type?, type.OfNames
  | _, .nil => List.forall_mem_nil _
  | .ofType _ :: _, .ofType htype hrest => List.forall_mem_cons.mpr ⟨htype, hrest.of_mem⟩
  | _, .lifetime _ hrest => hrest.of_mem
  | _, .constant _ hrest => hrest.of_mem

namespace TypeExpr.OfNames
variable {type : TypeExpr}

theorem unwrap? {inner : TypeExpr} {wrapper : String} (h : type.OfNames)
    (hinner : type.unwrap? wrapper = some inner) : inner.OfNames := by
  obtain ⟨arguments, hsegment, hsingle⟩ := unwrap?_eq_some.mp hinner
  cases h with
  | path harguments =>
    cases hsegment
    cases harguments with
    | none => cases hsingle
    | angled h => exact h.of_mem inner (List.mem_of_mem_head? (congrArg List.head? hsingle))

theorem holding (h : type.OfNames) : type.holding.2.OfNames :=
  holding_keeps h fun _ hinner houter => houter.unwrap? hinner

end TypeExpr.OfNames

end

end RecordPrivacy.Declaration
