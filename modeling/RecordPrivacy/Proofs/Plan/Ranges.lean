import RecordPrivacy.Proofs.Plan.Sites

/-! Results for ranges of sites.

Compilation goes through the sites of a root in their order. `Reports` says of a range of sites what
the result for it must be: the first of them that is refused decides the error, and if there is none
the directives among them are planned one by one. Results for ranges that follow each other make up
the result for both (`Reports.append`, `Reports.error_append`). -/
namespace RecordPrivacy
variable {n : Nat} {family : Family n} {root : Fin n}

/-! ### Positions on a way -/

theorem optionalPlaces_append (way : List (Step n)) (step : Step n) :
    optionalPlaces (way ++ [step]) =
      if step.optional then optionalPlaces way ++ [way.length] else optionalPlaces way := by
  have hway : (List.range way.length).filter (fun i => (way ++ [step])[i]?.any Step.optional) =
      optionalPlaces way := by
    apply List.filter_congr
    intro i hi
    rw [List.getElem?_append_left (List.mem_range.mp hi)]
  rw [optionalPlaces, List.length_append, List.length_singleton, List.range_succ,
    List.filter_append, hway]
  cases h : step.optional <;> simp [h]

namespace Position

/-- The position at the end of a way. -/
def along (way : List (Step n)) : Position :=
  ⟨way.map (·.field.index), optionalPlaces way, way.map (·.field.name)⟩

theorem along_nil : along ([] : List (Step n)) = .root := rfl

theorem enter_along (way : List (Step n)) (step : Step n) :
    (along way).enter step.field step.optional = along (way ++ [step]) := by
  simp [along, enter, optionalPlaces_append]

/-- No name on the way is empty, hence a dot follows the way exactly if there is one. -/
theorem dotted_along (way : List (Step n)) (name : String)
    (named : ∀ step ∈ way, step.field.name ≠ "") :
    (along way).dotted name =
      String.intercalate "." (way.map (·.field.name) ++ [name]) := by
  cases way with
  | nil => simp [along, dotted]
  | cons first rest =>
    have hne : String.intercalate "." ((first :: rest).map (·.field.name)) ≠ "" := by
      rw [List.map_cons]
      by_cases hrest : rest.map (·.field.name) = []
      · rw [hrest, String.intercalate_singleton]
        exact named first List.mem_cons_self
      · rw [String.intercalate_cons_of_ne_nil hrest]
        simp
    rw [String.intercalate_append_of_ne_nil (by simp) (by simp), String.intercalate_singleton]
    exact if_neg hne

end Position

/-! ### The order of sites -/

namespace Site
variable {a b : Site n}

theorem exists_address (site : Site n) :
    ∃ rest, rest ≠ [] ∧ site.address = site.way.map Step.place ++ rest := by
  cases site with
  | directive way place field shape rank given => exact ⟨[place, rank], by simp, rfl⟩
  | nested way step => exact ⟨[step.place], by simp, rfl⟩

theorem before_of_lt {common r s : List Nat} {p q : Nat} (ha : a.address = common ++ p :: r)
    (hb : b.address = common ++ q :: s) (h : p < q) : a.Before b := by
  rw [Before, ha, hb]
  exact List.append_left_lt (List.Lex.rel h)

theorem before_of_prefix {rest : List Nat} (hb : b.address = a.address ++ rest)
    (hrest : rest ≠ []) : a.Before b := by
  obtain ⟨r, rest, rfl⟩ := List.exists_cons_of_ne_nil hrest
  have h : a.address ++ [] < a.address ++ r :: rest := List.append_left_lt List.Lex.nil
  rw [List.append_nil, ← hb] at h
  exact h

theorem Before.asymm (h : a.Before b) : ¬ b.Before a :=
  List.lt_asymm h

/-- The directives of a leaf come in the order of their ranks. -/
theorem before_of_rank {way : List (Step n)} {place i j : Nat} {field : FieldSchema n}
    {shape : Shape} {first later : Directive} (h : i < j) :
    (directive way place field shape i first).Before (directive way place field shape j later) := by
  have ha : (directive way place field shape i first).address =
      (way.map Step.place ++ [place]) ++ i :: [] := by simp [address]
  exact before_of_lt (q := j) ha (by simp [address]; rfl) h

end Site

/-! ### Sites at a field and below it -/

/-- The sites on the ways that go on from a type at the end of a trail. -/
def Within (family : Family n) (trail : List (Step n)) (type : Fin n) (site : Site n) : Prop :=
  ∃ way last, site.way = trail ++ way ∧ Way family type way last ∧ site.At (family last).fields

inductive Under (family : Family n) (trail : List (Step n)) (place : Nat) (field : FieldSchema n) :
    Site n → Prop
  | directive {shape : Shape} {directives : List Directive} {rank : Nat} {directive : Directive} :
      field.kind = .leaf shape directives → directives[rank]? = some directive →
      Under family trail place field (.directive trail place field shape rank directive)
  | nested {optional : Bool} {record : Fin n} : field.kind = .nested optional record →
      Under family trail place field (.nested trail ⟨place, field, optional, record⟩)
  | below {optional : Bool} {record : Fin n} {site : Site n} :
      field.kind = .nested optional record →
      Within family (trail ++ [⟨place, field, optional, record⟩]) record site →
      Under family trail place field site

section
variable {trail : List (Step n)} {type : Fin n} {site : Site n}

theorem within_nil_iff : Within family [] root site ↔ site.Of family root := by
  constructor
  · intro h
    obtain ⟨_, last, rfl, hway, hat⟩ := h
    exact ⟨last, hway, hat⟩
  · intro h
    obtain ⟨last, hway, hat⟩ := h
    exact ⟨site.way, last, rfl, hway, hat⟩

/-- The first step of what is left of the way decides the field. -/
theorem within_iff : Within family trail type site ↔
    ∃ place field, (family type).fields[place]? = some field ∧
      Under family trail place field site := by
  constructor
  · intro h
    obtain ⟨way, last, hway, hchain, hat⟩ := h
    cases hchain with
    | nil =>
      rw [List.append_nil] at hway
      cases hat with
      | directive hfield hkind hrank =>
        cases hway
        exact ⟨_, _, hfield, .directive hkind hrank⟩
      | nested hstep =>
        cases hway
        exact ⟨_, _, hstep.declared, .nested hstep.nested⟩
    | @cons _ _ step way hstep hchain =>
      refine ⟨step.place, step.field, hstep.declared, .below hstep.nested ?_⟩
      exact ⟨way, last, by rw [hway, List.append_assoc]; rfl, hchain, hat⟩
  · intro h
    obtain ⟨place, field, hfield, hunder⟩ := h
    cases hunder with
    | directive hkind hrank =>
      exact ⟨[], type, (List.append_nil _).symm, .nil, .directive hfield hkind hrank⟩
    | nested hkind =>
      exact ⟨[], type, (List.append_nil _).symm, .nil, .nested ⟨hfield, hkind⟩⟩
    | @below optional record _ hkind hwithin =>
      obtain ⟨way, last, hway, hchain, hat⟩ := hwithin
      refine ⟨⟨place, field, optional, record⟩ :: way, last, ?_, .cons ⟨hfield, hkind⟩ hchain, hat⟩
      rw [hway, List.append_assoc]
      rfl

/-- The sites below a nested field come after it. -/
theorem Within.address {step : Step n} (h : Within family (trail ++ [step]) type site) :
    ∃ rest, rest ≠ [] ∧ site.address = trail.map Step.place ++ step.place :: rest := by
  obtain ⟨way, _, hway, -, -⟩ := h
  obtain ⟨rest, hne, haddress⟩ := site.exists_address
  refine ⟨way.map Step.place ++ rest, by simp [hne], ?_⟩
  rw [haddress, hway]
  simp

theorem Under.address {place : Nat} {field : FieldSchema n}
    (h : Under family trail place field site) :
    ∃ rest, site.address = trail.map Step.place ++ place :: rest := by
  cases h with
  | @directive shape directives rank directive hkind hrank => exact ⟨[rank], rfl⟩
  | nested hkind => exact ⟨[], rfl⟩
  | below hkind hwithin =>
    obtain ⟨rest, -, haddress⟩ := hwithin.address
    exact ⟨rest, haddress⟩

/-- What is at or below a field comes before what is at or below a later one. -/
theorem Under.before_of_place {a b : Site n} {p q : Nat} {field field' : FieldSchema n}
    (ha : Under family trail p field a) (hb : Under family trail q field' b) (h : p < q) :
    a.Before b := by
  obtain ⟨_, ha⟩ := ha.address
  obtain ⟨_, hb⟩ := hb.address
  exact Site.before_of_lt ha hb h

/-- A nested field comes before what is below it. -/
theorem Within.nested_before {step : Step n} (h : Within family (trail ++ [step]) type site) :
    (Site.nested trail step).Before site := by
  obtain ⟨rest, hne, haddress⟩ := h.address
  exact Site.before_of_prefix (by rw [haddress]; simp [Site.address]) hne

end

/-! ### Results for ranges of sites -/

/-- What holds at a place from `k` on holds at `k` or at a place behind it. -/
theorem exists_place_cons {α : Type} {P : Nat → α → Prop} (first : α) (rest : List α) (k : Nat) :
    (P k first ∨ ∃ i x, rest[i]? = some x ∧ P (k + 1 + i) x) ↔
      ∃ i x, (first :: rest)[i]? = some x ∧ P (k + i) x := by
  constructor
  · intro h
    obtain h | ⟨i, x, hi, h⟩ := h
    · exact ⟨0, first, rfl, h⟩
    · exact ⟨i + 1, x, hi, by rwa [← Nat.add_assoc, Nat.add_right_comm]⟩
  · intro h
    obtain ⟨i, x, hi, h⟩ := h
    cases i with
    | zero =>
      cases hi
      exact .inl h
    | succ i => exact .inr ⟨i, x, hi, by rwa [Nat.add_right_comm, Nat.add_assoc]⟩

/-- The result for a range of sites: if none of them is refused, the directives among them are
planned, in the order of the sites; else the first that is refused gives the error. -/
inductive Reports (family : Family n) (root : Fin n) (range : Site n → Prop) :
    Except CompileError (List (Action × FieldPlan)) → Prop
  | ok {sites : List (Site n)} {entries : List (Action × FieldPlan)} :
      (∀ site, range site → ∀ e, ¬ Refused family root site e) → sites.Pairwise Site.Before →
      (∀ site, site ∈ sites ↔ range site) →
      List.Forall₂ PlannedAs (sites.filter fun site => site.action?.isSome) entries →
      Reports family root range (.ok entries)
  | error {site : Site n} {e : CompileError} : range site → Refused family root site e →
      (∀ other e', range other → Refused family root other e' →
        other = site ∨ site.Before other) →
      Reports family root range (.error e)

namespace Reports
variable {M L : Site n → Prop} {r s : Except CompileError (List (Action × FieldPlan))}

theorem congr (h : Reports family root M r) (same : ∀ site, M site ↔ L site) :
    Reports family root L r := by
  obtain rfl : M = L := funext fun site => propext (same site)
  exact h

theorem none (empty : ∀ site, ¬ M site) : Reports family root M (.ok []) := by
  refine .ok (fun site hsite => absurd hsite (empty site)) List.Pairwise.nil (fun site => ?_) .nil
  simp [empty site]

theorem one_ok {site : Site n} {entries : List (Action × FieldPlan)}
    (hnone : ∀ e, ¬ Refused family root site e)
    (hplanned : List.Forall₂ PlannedAs ([site].filter fun site => site.action?.isSome) entries) :
    Reports family root (· = site) (.ok entries) := by
  refine .ok ?_ (List.pairwise_singleton _ site) (fun s => List.mem_singleton) hplanned
  intro s h e
  rw [h]
  exact hnone e

theorem one_error {site : Site n} {e : CompileError} (h : Refused family root site e) :
    Reports family root (· = site) (.error e) :=
  .error rfl h fun _ _ hother _ => .inl hother

/-- What is refused earlier decides, whatever comes later. -/
theorem error_append {e : CompileError} (h : Reports family root M (.error e))
    (order : ∀ a b, M a → L b → a.Before b) :
    Reports family root (fun site => M site ∨ L site) (.error e) := by
  cases h with
  | error hsite hrefused hfirst =>
    refine .error (.inl hsite) hrefused fun other e' hother hrefused' => ?_
    rcases hother with hother | hother
    · exact hfirst other e' hother hrefused'
    · exact .inr (order _ _ hsite hother)

theorem append {entries : List (Action × FieldPlan)} (h : Reports family root M (.ok entries))
    (h' : Reports family root L s) (order : ∀ a b, M a → L b → a.Before b) :
    Reports family root (fun site => M site ∨ L site) (s.map (entries ++ ·)) := by
  cases h with
  | @ok sites _ hnone hsorted hmem hplanned =>
    cases h' with
    | @ok sites' later hnone' hsorted' hmem' hplanned' =>
      have hall : (sites ++ sites').Pairwise Site.Before :=
        List.pairwise_append.mpr ⟨hsorted, hsorted', fun a ha b hb =>
          order a b ((hmem a).mp ha) ((hmem' b).mp hb)⟩
      refine .ok ?_ hall (fun site => ?_) ?_
      · intro site h
        obtain hsite | hsite := h
        · exact hnone site hsite
        · exact hnone' site hsite
      · rw [List.mem_append, hmem, hmem']
      · rw [List.filter_append]
        exact List.rel_append hplanned hplanned'
    | error hsite hrefused hfirst =>
      refine .error (.inr hsite) hrefused fun other e' hother hrefused' => ?_
      rcases hother with hother | hother
      · exact absurd hrefused' (hnone other hother e')
      · exact hfirst other e' hother hrefused'

end Reports

end RecordPrivacy
