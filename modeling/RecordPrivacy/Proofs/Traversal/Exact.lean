import RecordPrivacy.Proofs.Traversal.Effect
import RecordPrivacy.Sample.Forms
import RecordPrivacy.Sample.Supply
import Mathlib.Data.List.Perm.Basic

/-! Traversals whose transforms are functions.

If what a transform answers does not depend on what it draws, a traversal has one possible result.
`traverse_exact` says when there is one, what it is, and that it does not matter in which order the
entries of a mapping are listed. -/
namespace RecordPrivacy

/-! ### Transforms that draw nothing -/

namespace Transform
variable {t : Transform} {before after : List (Element × Piece)}

/-- What is answered does not depend on what is drawn. -/
def Deterministic (t : Transform) : Prop :=
  ∀ p supply supply', (t.piece p supply).1 = (t.piece p supply').1

/-- Decrypting, masking and redacting draw nothing. -/
theorem deterministic_of_action (t : Transform)
    (h : t.action = .decrypt ∨ t.action = .mask ∨ t.action = .redact) : t.Deterministic := by
  intro p supply supply'
  cases t with
  | encrypt _ => simp [action] at h
  | hash _ => simp [action] at h
  | decrypt _ => cases p <;> rfl
  | mask _ => cases p <;> rfl
  | redact _ => cases p <;> rfl

theorem Deterministic.answers (h : t.Deterministic) {p q : Piece} (hy : t.Yields p q) :
    t.Answers p (.ok q) := by
  obtain ⟨supply, hq⟩ := hy
  exact fun supply' => (h p supply' supply).trans hq

/-- Elements that all have an answer are visited without a failure. -/
theorem Visit.fault_eq_none {fault : Option (Element × Failure)} {supply supply' : Entropy}
    (h : t.Visit before supply after fault supply')
    (answered : ∀ e ∈ before, ∃ q, t.Answers e.2 (.ok q)) : fault = none := by
  induction h with
  | nil => rfl
  | @stop _ _ _ _ supply _ hp =>
    obtain ⟨q, hq⟩ := answered _ List.mem_cons_self
    cases (congrArg Prod.fst hp).symm.trans (hq supply)
  | step _ _ ih => exact ih fun e he => answered e (List.mem_cons_of_mem _ he)

/-- The answer on a piece, as the piece to put in its place. -/
def answered (t : Transform) (p : Piece) : Piece :=
  match (t.piece p ⟨fun _ => 0, 0⟩).1 with
  | .ok q => q
  | .error _ => p

theorem Elementwise.eq_map (h : Elementwise (fun p q => t.Answers p (.ok q)) before after) :
    after = before.map fun e => (e.1, t.answered e.2) := by
  induction h with
  | nil => rfl
  | @cons a b _ _ hr _ ih =>
    obtain ⟨hn, hp⟩ := hr
    have hb : t.answered a.2 = b.2 := by rw [answered, hp]
    rw [List.map_cons, ← ih, hb, ← hn]

end Transform

/-! ### Entries in another order -/

/-- The same leaf, except that the entries of a mapping may come in another order. -/
inductive Leaf.Relisted : Leaf → Leaf → Prop
  | refl (leaf : Leaf) : Relisted leaf leaf
  | mapping {entries entries' : List (Key × String)} : entries.Perm entries' →
      Relisted (.mapping entries) (.mapping entries')

namespace Leaf.Relisted
variable {a b a' b' : Leaf}

theorem shape (h : a.Relisted b) : a.shape = b.shape := by
  cases h <;> rfl

theorem elements (h : a.Relisted b) : a.elements.Perm b.elements := by
  cases h with
  | refl => exact .refl _
  | mapping hp => exact hp.map _

/-- Two listings of a leaf, transformed, are two listings of a leaf. -/
theorem transformed {t : Transform} (h : a.Relisted b) (hs : a'.shape = a.shape)
    (hs' : b'.shape = b.shape)
    (he : Transform.Elementwise (fun p q => t.Answers p (.ok q)) a.elements a'.elements)
    (he' : Transform.Elementwise (fun p q => t.Answers p (.ok q)) b.elements b'.elements) :
    a'.Relisted b' := by
  cases h with
  | refl =>
    rw [Leaf.ext_elements (hs.trans hs'.symm) (he.eq_map.trans he'.eq_map.symm)]
    exact .refl _
  | @mapping entries entries' hp =>
    cases a' <;> try cases hs
    cases b' <;> try cases hs'
    rename_i new new'
    have hkeyed : (Leaf.keyed new).Perm (Leaf.keyed new') := by
      have h := he.eq_map
      have h' := he'.eq_map
      simp only [Leaf.elements] at h h'
      rw [h, h']
      exact (hp.map _).map _
    refine .mapping ((List.map_perm_map_iff ?_).mp hkeyed)
    intro e e' hkv
    obtain ⟨k, v⟩ := e
    obtain ⟨k', v'⟩ := e'
    simpa using hkv

end Leaf.Relisted

/-- The same record, except that the entries of its mappings may come in another order. -/
structure Record.Relisted (a b : Record) : Prop where
  leaves : ∀ path leaf, a.resolve? path = some leaf →
    ∃ leaf', b.resolve? path = some leaf' ∧ leaf.Relisted leaf'
  others : ∀ path, a.resolve? path = none →
    (a.at? path).map Content.surface = (b.at? path).map Content.surface

/-- The leaves of a relisted record come from those of the record. -/
theorem Record.Relisted.original {a b : Record} {path : List Nat} {leaf : Leaf} (h : a.Relisted b)
    (hb : b.resolve? path = some leaf) : ∃ leaf', a.resolve? path = some leaf' ∧
      leaf'.Relisted leaf := by
  cases ha : a.resolve? path with
  | none =>
    rw [← Record.resolve?_of_surface (h.others path ha), ha] at hb
    cases hb
  | some leaf' =>
    obtain ⟨other, ho, hr⟩ := h.leaves path leaf' ha
    rw [hb] at ho
    cases ho
    exact ⟨leaf', rfl, hr⟩

/-! ### The traversal -/

variable {c : Capabilities} {action : Action} {plans : List FieldPlan} {record : Record}

/-- Every plan that reaches a leaf is bound to a transform, which has an answer on every element. -/
def Answerable (c : Capabilities) (action : Action) (plans : List FieldPlan) (record : Record) :
    Prop :=
  ∀ plan ∈ plans, ∀ leaf, record.resolve? plan.path = some leaf →
    ∃ t, Transform.bind c action plan.parameter = .ok t ∧
      ∀ e ∈ leaf.elements, ∃ q, t.Answers e.2 (.ok q)

theorem Answerable.relisted {other : Record} (h : Answerable c action plans record)
    (same : record.Relisted other) : Answerable c action plans other := by
  intro plan hp leaf hl
  obtain ⟨leaf', hl', hr⟩ := same.original hl
  obtain ⟨t, hbind, hall⟩ := h plan hp leaf' hl'
  exact ⟨t, hbind, fun e he => hall e (hr.elements.mem_iff.mpr he)⟩

/-- A traversal gets through if every element that it reaches has an answer. -/
theorem traverse_succeeds (distinct : (plans.map FieldPlan.path).Nodup)
    (answerable : Answerable c action plans record) (supply : Entropy) :
    ∃ result count supply', traverse c action plans record supply =
      ((result, .ok count), supply') := by
  induction plans generalizing record supply with
  | nil => exact ⟨record, 0, supply, rfl⟩
  | cons first rest ih =>
    rw [List.map_cons, List.nodup_cons] at distinct
    have hfirst : ∃ mid n supply₁, first.run c action record supply =
        ((mid, .ok n), supply₁) := by
      cases hl : record.resolve? first.path with
      | none => exact ⟨_, _, _, FieldPlan.run_skip supply hl⟩
      | some leaf =>
        obtain ⟨t, hbind, hall⟩ := answerable first List.mem_cons_self leaf hl
        have hrun : first.run c action record supply = _ :=
          FieldPlan.run_bound supply hl hbind
        rw [(t.leaf_visit leaf supply).2.fault_eq_none hall] at hrun
        exact ⟨_, _, _, hrun⟩
    obtain ⟨mid, n, supply₁, hfirst⟩ := hfirst
    have hmid : Answerable c action rest mid := by
      intro plan hp leaf hl
      have hne : first.path ≠ plan.path := fun he =>
        distinct.1 (he ▸ List.mem_map_of_mem (f := FieldPlan.path) hp)
      have hkept := FieldPlan.run_resolve? c action record supply hne
      rw [hfirst] at hkept
      exact answerable plan (List.mem_cons_of_mem _ hp) leaf (hkept ▸ hl)
    obtain ⟨result, m, supply', hrest⟩ := ih distinct.2 hmid supply₁
    exact ⟨result, n + m, supply', traverse_cons_ok.mpr ⟨mid, n, supply₁, m, hfirst, hrest, rfl⟩⟩

/-- What a plan answers on a piece, whatever is drawn. -/
def FieldPlan.Answers (plan : FieldPlan) (c : Capabilities) (action : Action)
    (before after : Piece) : Prop :=
  ∃ t, Transform.bind c action plan.parameter = .ok t ∧ t.Answers before (.ok after)

/-- The effect of a traversal that succeeds. -/
theorem traverse_applied {result : Record} {count : Nat} {supply supply' : Entropy}
    (distinct : (plans.map FieldPlan.path).Nodup)
    (deterministic : ∀ plan ∈ plans, ∀ t, Transform.bind c action plan.parameter = .ok t →
      t.Deterministic)
    (h : traverse c action plans record supply = ((result, .ok count), supply')) :
    Applied (fun plan => plan.Answers c action) plans record result :=
  (traverse_yields distinct h).1.imp fun plan hp _ _ ⟨t, hbind, hy⟩ =>
    ⟨t, hbind, (deterministic plan hp t hbind).answers hy⟩

/-- A traversal that gets through had an answer on every element that it reached. -/
theorem answerable_of_traverse {result : Record} {count : Nat} {supply supply' : Entropy}
    (distinct : (plans.map FieldPlan.path).Nodup)
    (deterministic : ∀ plan ∈ plans, ∀ t, Transform.bind c action plan.parameter = .ok t →
      t.Deterministic)
    (h : traverse c action plans record supply = ((result, .ok count), supply')) :
    Answerable c action plans record := by
  intro plan hp leaf hl
  obtain ⟨changes, -, -, -, hwritten⟩ := traverse_ok distinct h
  obtain ⟨t, leaf', hbind, -, -, he⟩ := hwritten plan hp leaf hl
  refine ⟨t, hbind, fun e hmem => ?_⟩
  obtain ⟨q, hy⟩ := Transform.Elementwise.exists_of_mem he hmem
  exact ⟨q, (deterministic plan hp t hbind).answers hy⟩

theorem FieldPlan.present_relisted {other : Record} (plan : FieldPlan)
    (same : record.Relisted other) : plan.present other = plan.present record := by
  unfold present
  cases hr : record.resolve? plan.path with
  | none => rw [← Record.resolve?_of_surface (same.others _ hr), hr]
  | some leaf =>
    obtain ⟨leaf', hl', -⟩ := same.leaves _ leaf hr
    rw [hl']
    rfl

/-- One effect on two listings of a record leaves two listings of a record. -/
theorem Applied.relisted {other result result' : Record}
    (h : Applied (fun plan => plan.Answers c action) plans record result)
    (h' : Applied (fun plan => plan.Answers c action) plans other result')
    (answerable : Answerable c action plans record) (same : record.Relisted other) :
    result.Relisted result' := by
  have hreached : ∀ plan ∈ plans, ∀ leaf, record.resolve? plan.path = some leaf →
      ∃ new new', result.resolve? plan.path = some new ∧ result'.resolve? plan.path = some new' ∧
        new.Relisted new' := by
    intro plan hp leaf hl
    obtain ⟨leaf', hl', hr⟩ := same.leaves _ leaf hl
    obtain ⟨new, hn, hs, he⟩ := h.reached plan hp leaf hl
    obtain ⟨new', hn', hs', he'⟩ := h'.reached plan hp leaf' hl'
    obtain ⟨t, hbind, -⟩ := answerable plan hp leaf hl
    have hanswers : ∀ p q, plan.Answers c action p q → t.Answers p (.ok q) := by
      intro p q h
      obtain ⟨t', hbind', ha⟩ := h
      cases hbind.symm.trans hbind'
      exact ha
    exact ⟨new, new', hn, hn', hr.transformed hs hs'
      (he.imp fun a b hab => ⟨hab.1, hanswers _ _ hab.2⟩)
      (he'.imp fun a b hab => ⟨hab.1, hanswers _ _ hab.2⟩)⟩
  -- A path that no plan reaches in the record is not reached in the other listing either.
  have hunreached : ∀ path, (∀ plan ∈ plans, plan.path = path → record.resolve? path = none) →
      (result.at? path).map Content.surface = (record.at? path).map Content.surface ∧
        (result'.at? path).map Content.surface = (other.at? path).map Content.surface := by
    intro path hpath
    refine ⟨h.unreached path hpath, h'.unreached path fun plan hp he => ?_⟩
    rw [← Record.resolve?_of_surface (same.others path (hpath plan hp he))]
    exact hpath plan hp he
  constructor
  · intro path leaf hleaf
    by_cases hpath : ∀ plan ∈ plans, plan.path = path → record.resolve? path = none
    · obtain ⟨hsurface, hsurface'⟩ := hunreached path hpath
      rw [Record.resolve?_of_surface hsurface] at hleaf
      rw [Record.resolve?_of_surface hsurface']
      exact same.leaves path leaf hleaf
    · simp only [not_forall] at hpath
      obtain ⟨plan, hp, rfl, hsome⟩ := hpath
      obtain ⟨old, hl⟩ := Option.ne_none_iff_exists'.mp hsome
      obtain ⟨new, new', hn, hn', hr⟩ := hreached plan hp old hl
      rw [hleaf] at hn
      cases hn
      exact ⟨new', hn', hr⟩
  · intro path hnone
    have hpath : ∀ plan ∈ plans, plan.path = path → record.resolve? path = none := by
      intro plan hp h
      subst h
      by_contra hsome
      obtain ⟨old, hl⟩ := Option.ne_none_iff_exists'.mp hsome
      obtain ⟨new, -, hn, -⟩ := hreached plan hp old hl
      rw [hnone] at hn
      cases hn
    obtain ⟨hsurface, hsurface'⟩ := hunreached path hpath
    rw [Record.resolve?_of_surface hsurface] at hnone
    rw [hsurface, hsurface', same.others path hnone]

/-- **A traversal is exact.** It gets through just when every element that it reaches has an
answer; then each of these elements is the answer on what it was, everything else is as it was, and
the count is that of the plans that reach a leaf. The order in which entries are listed changes
nothing but the order in which they are listed. -/
theorem traverse_exact (distinct : (plans.map FieldPlan.path).Nodup)
    (deterministic : ∀ plan ∈ plans, ∀ t, Transform.bind c action plan.parameter = .ok t →
      t.Deterministic) (supply : Entropy) :
    ((∃ result count supply', traverse c action plans record supply =
        ((result, .ok count), supply')) ↔ Answerable c action plans record) ∧
      ∀ result count supply', traverse c action plans record supply =
          ((result, .ok count), supply') →
        Applied (fun plan => plan.Answers c action) plans record result ∧
        count = plans.countP (·.present record) ∧
        ∀ other, record.Relisted other → ∀ supply₁, ∃ result' supply₁',
          traverse c action plans other supply₁ = ((result', .ok count), supply₁') ∧
          result.Relisted result' := by
  refine ⟨⟨?_, fun h => traverse_succeeds distinct h supply⟩, ?_⟩
  · intro h
    obtain ⟨result, count, supply', h⟩ := h
    exact answerable_of_traverse distinct deterministic h
  · intro result count supply' h
    have ha := answerable_of_traverse distinct deterministic h
    have happlied := traverse_applied distinct deterministic h
    have hcount := (traverse_yields distinct h).2
    refine ⟨happlied, hcount, fun other same supply₁ => ?_⟩
    obtain ⟨result', count', supply₁', h'⟩ := traverse_succeeds distinct (ha.relisted same) supply₁
    have happlied' := traverse_applied distinct deterministic h'
    have hcount' := (traverse_yields distinct h').2
    have hcounts : count' = count := by
      rw [hcount, hcount']
      exact List.countP_congr fun plan _ => by rw [plan.present_relisted same]
    rw [hcounts] at h'
    exact ⟨result', supply₁', h', happlied.relisted happlied' ha same⟩

open Sample in
/-- Every part of a form is masked once, and the record that was left out is not counted. -/
theorem form_masked_exactly :
    Applied (fun plan => plan.Answers picky .mask) (formPlans (.masker .name))
        (form "Ada" "red" "green" "late") (form "*" "*" "*" "*") ∧
      3 = (formPlans (.masker .name)).countP (·.present (form "Ada" "red" "green" "late")) := by
  have hparameter : ∀ plan ∈ formPlans (.masker .name), plan.parameter = .masker .name := by decide
  have hbound : ∀ plan ∈ formPlans (.masker .name), ∀ t,
      Transform.bind picky .mask plan.parameter = .ok t → t.Deterministic := by
    intro plan hp t hbind
    rw [hparameter plan hp] at hbind
    cases hbind
    exact Transform.deterministic_of_action _ (.inr (.inl rfl))
  have hrun : traverse picky .mask (formPlans (.masker .name)) (form "Ada" "red" "green" "late")
      supply = ((form "*" "*" "*" "*", .ok 3), supply) := rfl
  obtain ⟨happlied, hcount, -⟩ := (traverse_exact (by decide) hbound supply).2 _ _ supply hrun
  exact ⟨happlied, hcount⟩

end RecordPrivacy
