import RecordPrivacy.Proofs.Transform.Refusal
import RecordPrivacy.Proofs.Traversal.Effect
import RecordPrivacy.Sample.Forms
import RecordPrivacy.Sample.Supply

/-! Traversals that fail.

A traversal that fails does so at one point, a plan and an element of its leaf.
`traverse_first_failure` says how the record stands then: what comes before the point is
transformed, everything else is as it was, and the error names the point and gives the reason. -/
namespace RecordPrivacy

/-! ### Where a visit fails -/

namespace Transform.Visit
variable {t : Transform} {supply supply' : Entropy}

/-- A visit without a failure is one of the first elements and then one of the others. -/
theorem of_append {a b after : List (Element × Piece)}
    (h : t.Visit (a ++ b) supply after none supply') :
    ∃ done rest supply₁, t.Visit a supply done none supply₁ ∧
      t.Visit b supply₁ rest none supply' := by
  induction a generalizing supply after with
  | nil => exact ⟨[], after, supply, .nil, h⟩
  | cons first a ih =>
    cases h with
    | step hp h =>
      obtain ⟨done, rest, supply₁, ha, hb⟩ := ih h
      exact ⟨_, rest, supply₁, .step hp ha, hb⟩

/-- No visit gets past an element that fails where it is reached. -/
theorem le_of_error {before done after : List (Element × Piece)} {i j : Nat} {element : Element}
    {p : Piece} {failure : Failure} {supply₁ supply₂ supply₃ : Entropy}
    (hi : t.Visit (before.take i) supply done none supply₁)
    (he : before[i]? = some (element, p)) (hp : t.piece p supply₁ = (.error failure, supply₂))
    (hj : t.Visit (before.take j) supply after none supply₃) : j ≤ i := by
  by_contra hlt
  have hsplit : before.take j =
      before.take i ++ (element, p) :: (before.drop (i + 1)).take (j - i - 1) := by
    obtain ⟨hlen, hget⟩ := List.getElem?_eq_some_iff.mp he
    rw [← hget]
    calc before.take j = before.take i ++ (before.drop i).take (j - i) := by
          rw [← List.take_add, show i + (j - i) = j by omega]
      _ = _ := by
          rw [List.drop_eq_getElem_cons hlen, show j - i = (j - i - 1) + 1 by omega,
            List.take_succ_cons]
          rfl
  rw [hsplit] at hj
  obtain ⟨_, _, _, hdone, hrest⟩ := of_append hj
  obtain ⟨-, -, rfl⟩ := hi.unique hdone
  cases hrest with
  | step hq _ => cases hp.symm.trans hq

end Transform.Visit

/-- An element of a leaf by its place, and what an error at the element calls the field of that
name: the bare name of a text or a buffer, with the index of an item or the key of an entry. -/
inductive Leaf.ElementAt (name : String) : Leaf → Nat → Piece → String → Prop
  | text (value : String) : ElementAt name (.text value) 0 (.text value) name
  | bytes (value : Bytes) : ElementAt name (.bytes value) 0 (.bytes value) name
  | item {items : List String} {i : Nat} {value : String} : items[i]? = some value →
      ElementAt name (.sequence items) i (.text value) (name ++ s!"[{i}]")
  | entry {entries : List (Key × String)} {i : Nat} {key : Key} {value : String} :
      entries[i]? = some (key, value) →
      ElementAt name (.mapping entries) i (.text value) (name ++ s!"[{key.shown}]")

theorem Leaf.elementAt_iff {name field : String} {leaf : Leaf} {j : Nat} {p : Piece} :
    leaf.ElementAt name j p field ↔
      ∃ element, leaf.elements[j]? = some (element, p) ∧ field = name ++ element.suffix := by
  constructor
  · intro h
    cases h with
    | text value => exact ⟨.whole, rfl, (String.append_empty).symm⟩
    | bytes value => exact ⟨.whole, rfl, (String.append_empty).symm⟩
    | item hi => exact ⟨.item j, by simp [elements, numbered, hi], rfl⟩
    | @entry entries _ key value he => exact ⟨.entry key, by simp [elements, keyed, he], rfl⟩
  · intro h
    obtain ⟨element, he, rfl⟩ := h
    cases leaf with
    | text value =>
      obtain ⟨hj, hget⟩ := List.getElem?_eq_some_iff.mp he
      obtain rfl : j = 0 := by simpa [elements] using hj
      cases hget
      rw [Element.suffix, String.append_empty]
      exact .text value
    | bytes value =>
      obtain ⟨hj, hget⟩ := List.getElem?_eq_some_iff.mp he
      obtain rfl : j = 0 := by simpa [elements] using hj
      cases hget
      rw [Element.suffix, String.append_empty]
      exact .bytes value
    | sequence items =>
      simp only [elements, numbered, List.getElem?_map, List.getElem?_zipIdx, Option.map_map,
        Option.map_eq_some_iff, Function.comp_apply, Nat.zero_add] at he
      obtain ⟨value, hi, he⟩ := he
      cases he
      exact .item hi
    | mapping entries =>
      simp only [elements, keyed, List.getElem?_map, Option.map_eq_some_iff] at he
      obtain ⟨⟨key, value⟩, hi, he⟩ := he
      cases he
      exact .entry hi

/-- Of the elements of a leaf one is refused where it is reached. -/
theorem Leaf.ElementAt.refused_once {t : Transform} {name field field' : String} {leaf : Leaf}
    {j j' : Nat} {p p' : Piece} {done done' : List (Element × Piece)} {failure failure' : Failure}
    {supply supply₁ supply₁' supply₂ supply₂' : Entropy} (hat : leaf.ElementAt name j p field)
    (hv : t.Visit (leaf.elements.take j) supply done none supply₁)
    (hp : t.piece p supply₁ = (.error failure, supply₂))
    (hat' : leaf.ElementAt name j' p' field')
    (hv' : t.Visit (leaf.elements.take j') supply done' none supply₁')
    (hp' : t.piece p' supply₁' = (.error failure', supply₂')) : j = j' ∧ p = p' := by
  obtain ⟨_, he, -⟩ := elementAt_iff.mp hat
  obtain ⟨_, he', -⟩ := elementAt_iff.mp hat'
  obtain rfl := Nat.le_antisymm (hv'.le_of_error he' hp' hv) (hv.le_of_error he hp hv')
  cases he.symm.trans he'
  exact ⟨rfl, rfl⟩

/-! ### The plan that fails -/

/-- A plan broken off at the `j`-th element of a leaf, with the leaf as it stands then and the
error. Without a capability no element is touched; else the elements before the `j`-th are
transformed, it is refused, and the elements from there on stay. -/
inductive BrokenOff (c : Capabilities) (action : Action) (plan : FieldPlan) (leaf : Leaf)
    (supply : Entropy) : Nat → Leaf → TransformError → Entropy → Prop
  | unbound {x : CapabilityError} : Transform.bind c action plan.parameter = .error x →
      BrokenOff c action plan leaf supply 0 leaf
        ⟨.ofAction action, action, plan.name, .capability x⟩ supply
  | refused {t : Transform} {j : Nat} {leaf' : Leaf} {p : Piece} {field : String}
      {failure : Failure} {supply₁ supply' : Entropy} :
      Transform.bind c action plan.parameter = .ok t → leaf'.shape = leaf.shape →
      t.Visit (leaf.elements.take j) supply (leaf'.elements.take j) none supply₁ →
      leaf'.elements.drop j = leaf.elements.drop j →
      leaf.ElementAt plan.name j p field →
      t.piece p supply₁ = (.error failure, supply') → Refusal supply₁ t p failure →
      BrokenOff c action plan leaf supply j leaf'
        ⟨failure.kind, action, field, failure.cause⟩ supply'

variable {c : Capabilities} {action : Action} {plan : FieldPlan} {plans : List FieldPlan}
  {record result : Record} {supply supply' : Entropy} {e : TransformError}

namespace BrokenOff
variable {leaf leaf' : Leaf} {j : Nat}

theorem shape (h : BrokenOff c action plan leaf supply j leaf' e supply') :
    leaf'.shape = leaf.shape := by
  cases h with
  | unbound _ => rfl
  | refused _ hs => exact hs

theorem names (h : BrokenOff c action plan leaf supply j leaf' e supply') :
    leaf'.elements.map Prod.fst = leaf.elements.map Prod.fst := by
  cases h with
  | unbound _ => rfl
  | refused _ _ hv hd =>
    rw [← List.take_append_drop j leaf'.elements, List.map_append, hv.names, hd,
      ← List.map_append, List.take_append_drop]

/-- A plan breaks off at one element. -/
theorem unique {i : Nat} {leaf₁ leaf₂ : Leaf} {e₁ e₂ : TransformError} {supply₁ supply₂ : Entropy}
    (h₁ : BrokenOff c action plan leaf supply i leaf₁ e₁ supply₁)
    (h₂ : BrokenOff c action plan leaf supply j leaf₂ e₂ supply₂) : i = j := by
  cases h₁ with
  | unbound hb₁ =>
    cases h₂ with
    | unbound _ => rfl
    | refused hb₂ => cases hb₁.symm.trans hb₂
  | refused hb₁ _ hv₁ _ hat₁ hp₁ =>
    cases h₂ with
    | unbound hb₂ => cases hb₁.symm.trans hb₂
    | refused hb₂ _ hv₂ _ hat₂ hp₂ =>
      cases hb₁.symm.trans hb₂
      exact (hat₁.refused_once hv₁ hp₁ hat₂ hv₂ hp₂).1

end BrokenOff

/-- A plan that fails is broken off somewhere. -/
theorem FieldPlan.run_brokenOff
    (h : plan.run c action record supply = ((result, .error e), supply')) :
    ∃ leaf j leaf', record.resolve? plan.path = some leaf ∧
      BrokenOff c action plan leaf supply j leaf' e supply' ∧
      result = record.replace plan.path leaf' := by
  obtain ⟨leaf, hleaf, ⟨x, hb, rfl, rfl⟩ | ⟨t, leaf', element, failure, hb, rfl, hs, hv, rfl⟩⟩ :=
    run_error h
  · rw [run_unbound supply hleaf hb] at h
    cases h
    have hfield : plan.name ++ Element.whole.suffix = plan.name := String.append_empty
    refine ⟨leaf, 0, leaf, hleaf, ?_, (Record.replace_of_resolve? hleaf).symm⟩
    rw [FieldPlan.fail, hfield]
    exact .unbound hb
  · obtain ⟨done, done', rest, p, supply₁, hbefore, hafter, hdone, hp⟩ := hv.split
    have hlen : done'.length = done.length := by
      simpa using congrArg List.length hdone.names
    refine ⟨leaf, done.length, leaf', hleaf, .refused hb hs ?_ ?_ ?_ hp ?_, rfl⟩
    · rw [hbefore, hafter, List.take_left, ← hlen, List.take_left]
      exact hdone
    · rw [hbefore, hafter, List.drop_left, ← hlen, List.drop_left]
    · exact Leaf.elementAt_iff.mpr ⟨element, by rw [hbefore]; simp, rfl⟩
    · exact (Transform.piece_error_iff supply₁ failure t p).mp (congrArg Prod.fst hp)

/-! ### The traversal that fails -/

/-- A traversal that failed at the `j`-th element of the leaf of the `k`-th plan. -/
structure FailedAt (c : Capabilities) (action : Action) (plans : List FieldPlan) (record : Record)
    (supply : Entropy) (result : Record) (e : TransformError) (supply' : Entropy) (k j : Nat) :
    Prop where
  /-- The plans before it got through; this one, with the leaf as it was, is broken off. -/
  broken : ∃ plan leaf leaf' mid count supply₁, plans[k]? = some plan ∧
    traverse c action (plans.take k) record supply = ((mid, .ok count), supply₁) ∧
    plan.run c action mid supply₁ = ((result, .error e), supply') ∧
    record.resolve? plan.path = some leaf ∧ result.resolve? plan.path = some leaf' ∧
    BrokenOff c action plan leaf supply₁ j leaf' e supply'
  /-- The entries of a mapping kept in the order of its keys are the ones with lesser keys. -/
  keys : ∀ plan entries, plans[k]? = some plan →
    record.resolve? plan.path = some (.mapping entries) →
    ∀ less : Key → Key → Prop, (∀ a b, less a b → ¬ less b a) →
      entries.Pairwise (fun a b => less a.1 b.1) →
      ∀ i a b, entries[i]? = some a → entries[j]? = some b → (i < j ↔ less a.1 b.1)
  before : ∀ plan ∈ plans.take k, ∀ leaf, record.resolve? plan.path = some leaf →
    ∃ leaf', result.resolve? plan.path = some leaf' ∧ leaf'.shape = leaf.shape ∧
      Transform.Elementwise (plan.Yields c action) leaf.elements leaf'.elements
  after : ∀ plan ∈ plans.drop (k + 1), result.resolve? plan.path = record.resolve? plan.path
  others : ∀ path, path ∉ (plans.take (k + 1)).map FieldPlan.path →
    (result.at? path).map Content.surface = (record.at? path).map Content.surface
  frames : ∀ path, (result.at? path).map Content.frame = (record.at? path).map Content.frame

/-- In a sorted list the place tells the order. -/
theorem lt_iff_of_pairwise {α : Type} {less : α → α → Prop} (asymm : ∀ a b, less a b → ¬ less b a)
    {l : List α} (sorted : l.Pairwise less) {i j : Nat} {a b : α} (ha : l[i]? = some a)
    (hb : l[j]? = some b) : i < j ↔ less a b := by
  obtain ⟨hi, rfl⟩ := List.getElem?_eq_some_iff.mp ha
  obtain ⟨hj, rfl⟩ := List.getElem?_eq_some_iff.mp hb
  rw [List.pairwise_iff_getElem] at sorted
  refine ⟨sorted i j hi hj, fun hless => ?_⟩
  rcases Nat.lt_trichotomy i j with h | rfl | h
  · exact h
  · exact absurd hless (asymm _ _ hless)
  · exact absurd hless (asymm _ _ (sorted j i hj hi h))

/-- What a plan that fails leaves behind, after the plans before it were carried out. -/
theorem failedAt {k n : Nat} {mid : Record} {supply₁ : Entropy}
    (distinct : (plans.map FieldPlan.path).Nodup) (hk : plans[k]? = some plan)
    (hbefore : traverse c action (plans.take k) record supply = ((mid, .ok n), supply₁))
    (hplan : plan.run c action mid supply₁ = ((result, .error e), supply')) :
    ∃ j, FailedAt c action plans record supply result e supply' k j := by
  have htake : plans.take (k + 1) = plans.take k ++ [plan] := by
    rw [List.take_add_one, hk, Option.toList_some]
  rw [← List.take_append_drop (k + 1) plans, List.map_append, htake, List.map_append] at distinct
  obtain ⟨hdone, -, hlater⟩ := List.nodup_append.mp distinct
  obtain ⟨hfirst, -, hnew⟩ := List.nodup_append.mp hdone
  have hfresh : plan.path ∉ (plans.take k).map FieldPlan.path := fun hmem =>
    hnew _ hmem plan.path List.mem_cons_self rfl
  have hmid := (traverse_yields hfirst hbefore).1
  have hkept : ∀ path, path ∉ (plans.take k).map FieldPlan.path →
      (mid.at? path).map Content.surface = (record.at? path).map Content.surface :=
    fun path hpath => hmid.unreached path fun p hp he =>
      absurd (List.mem_map.mpr ⟨p, hp, he⟩) hpath
  obtain ⟨leaf, j, leaf', hleaf, hoff, rfl⟩ := FieldPlan.run_brokenOff hplan
  have hothers : ∀ path, path ∉ (plans.take (k + 1)).map FieldPlan.path →
      ((mid.replace plan.path leaf').at? path).map Content.surface =
        (record.at? path).map Content.surface := by
    intro path hpath
    rw [htake, List.map_append, List.mem_append, not_or] at hpath
    have hne : plan.path ≠ path := fun he => hpath.2 (List.mem_singleton.mpr he.symm)
    rw [Record.surface_replace mid plan.path path leaf' hne, hkept path hpath.1]
  have hold : record.resolve? plan.path = some leaf := by
    rw [← Record.resolve?_of_surface (hkept plan.path hfresh), hleaf]
  refine ⟨j, ?_, ?_, ?_, ?_, hothers, ?_⟩
  · exact ⟨plan, leaf, leaf', mid, n, supply₁, hk, hbefore, hplan, hold,
      Record.resolve?_replace_self leaf' hleaf, hoff⟩
  · intro _ entries _ _ less asymm sorted i a b ha hb
    exact lt_iff_of_pairwise (fun a b => asymm a.1 b.1) sorted ha hb
  · intro p hp old hl
    have hne : plan.path ≠ p.path := fun he =>
      hfresh (he ▸ List.mem_map_of_mem (f := FieldPlan.path) hp)
    rw [Record.resolve?_replace_ne mid plan.path p.path leaf' hne]
    exact hmid.reached p hp old hl
  · intro p hp
    refine Record.resolve?_of_surface (hothers p.path fun hmem => ?_)
    rw [htake, List.map_append] at hmem
    exact hlater _ hmem _ (List.mem_map_of_mem hp) rfl
  · intro path
    rw [Record.frame_replace hleaf hoff.shape hoff.names, hmid.frames]

/-- A traversal fails at one plan only. -/
theorem fails_once {k k' n n' : Nat} {plan' : FieldPlan} {mid mid' result' : Record}
    {supply₁ supply₁' supply₂ supply₂' : Entropy} {e' : TransformError}
    (hk : plans[k]? = some plan)
    (hbefore : traverse c action (plans.take k) record supply = ((mid, .ok n), supply₁))
    (hplan : plan.run c action mid supply₁ = ((result, .error e), supply₂))
    (hk' : plans[k']? = some plan')
    (hbefore' : traverse c action (plans.take k') record supply = ((mid', .ok n'), supply₁'))
    (hplan' : plan'.run c action mid' supply₁' = ((result', .error e'), supply₂')) :
    k = k' ∧ plan = plan' ∧ mid = mid' ∧ supply₁ = supply₁' := by
  have hle : ¬ k < k' := fun hlt => by
    rw [traverse_take_of_error hk hbefore hplan k' hlt] at hbefore'
    cases hbefore'
  have hge : ¬ k' < k := fun hlt => by
    rw [traverse_take_of_error hk' hbefore' hplan' k hlt] at hbefore
    cases hbefore
  obtain rfl : k = k' := by omega
  cases hk.symm.trans hk'
  cases hbefore.symm.trans hbefore'
  exact ⟨rfl, rfl, rfl, rfl⟩

theorem FailedAt.unique {k j k' j' : Nat}
    (h : FailedAt c action plans record supply result e supply' k j)
    (h' : FailedAt c action plans record supply result e supply' k' j') : k = k' ∧ j = j' := by
  obtain ⟨plan, leaf, _, mid, n, supply₁, hk, hbefore, hplan, hleaf, -, hoff⟩ := h.broken
  obtain ⟨plan', leaf', _, mid', n', supply₁', hk', hbefore', hplan', hleaf', -, hoff'⟩ := h'.broken
  obtain ⟨rfl, rfl, rfl, rfl⟩ := fails_once hk hbefore hplan hk' hbefore' hplan'
  cases hleaf.symm.trans hleaf'
  exact ⟨rfl, hoff.unique hoff'⟩

/-- **A traversal that fails stops at the first failure.** There is one point at which it failed:
the plans before that plan and the elements before that element are transformed, everything else is
as it was, and the error names the element and has the failure of the capability. -/
theorem traverse_first_failure (distinct : (plans.map FieldPlan.path).Nodup)
    (h : traverse c action plans record supply = ((result, .error e), supply')) :
    ∃! point : Nat × Nat,
      FailedAt c action plans record supply result e supply' point.1 point.2 := by
  obtain ⟨k, plan, mid, n, supply₁, hk, hbefore, hplan⟩ := traverse_error h
  obtain ⟨j, hj⟩ := failedAt distinct hk hbefore hplan
  refine ⟨(k, j), hj, fun point hpoint => ?_⟩
  obtain ⟨hk', hj'⟩ := hpoint.unique hj
  exact Prod.ext hk' hj'

open Sample in
/-- The second of two tags is refused: the name and the first tag are masked, the note is not. -/
theorem form_fails_at_tag :
    ∃! point : Nat × Nat, FailedAt picky .mask (formPlans (.masker .name))
      (form "Ada" "red" "" "late") Sample.supply (form "*" "*" "" "late")
      ⟨.maskFailed, .mask, "more.tags[1]", .capability (.other "empty")⟩ Sample.supply
      point.1 point.2 :=
  traverse_first_failure (by decide) rfl

end RecordPrivacy
