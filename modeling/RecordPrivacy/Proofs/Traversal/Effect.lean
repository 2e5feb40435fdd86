import RecordPrivacy.Proofs.Record.Paths
import RecordPrivacy.Proofs.Transform.Elements
import RecordPrivacy.Traversal

/-! What a traversal does to a record.

One plan is skipped, fails, or writes its leaf (`run_ok`, `run_error`). Plans with distinct paths do
not get in each other's way, so that every plan finds its leaf as it was at the start: a traversal
that succeeds is a list of writes, one for each plan that reaches a leaf (`traverse_ok`), and one
that fails succeeded on the plans before the one that failed (`traverse_error`). -/
namespace RecordPrivacy
variable {c : Capabilities} {action : Action} {record result : Record} {supply supply' : Entropy}

/-! ### One plan -/

namespace FieldPlan
variable {plan : FieldPlan}

/-- Whether the plan leads to a leaf of the record. -/
def present (plan : FieldPlan) (record : Record) : Bool :=
  (record.resolve? plan.path).isSome

theorem run_skip (supply : Entropy) (h : record.resolve? plan.path = none) :
    plan.run c action record supply = ((record, .ok 0), supply) := by
  simp only [run, h]
  rfl

theorem run_unbound {leaf : Leaf} {e : CapabilityError} (supply : Entropy)
    (h : record.resolve? plan.path = some leaf)
    (hb : Transform.bind c action plan.parameter = .error e) :
    plan.run c action record supply =
      ((record, .error (plan.fail action .whole ⟨.ofAction action, .capability e⟩)), supply) := by
  simp only [run, h, hb]
  rfl

theorem run_bound {leaf : Leaf} {t : Transform} (supply : Entropy)
    (h : record.resolve? plan.path = some leaf)
    (hb : Transform.bind c action plan.parameter = .ok t) :
    plan.run c action record supply =
      ((record.replace plan.path (t.leaf leaf supply).1.1,
        match (t.leaf leaf supply).1.2 with
        | some (element, failure) => .error (plan.fail action element failure)
        | none => .ok 1), (t.leaf leaf supply).2) := by
  simp only [run, h, hb, State.bind_apply]
  cases (t.leaf leaf supply).1.2 <;> rfl

/-- A plan that succeeds was skipped or has written its leaf. -/
theorem run_ok {count : Nat}
    (h : plan.run c action record supply = ((result, .ok count), supply')) :
    (record.resolve? plan.path = none ∧ result = record ∧ count = 0 ∧ supply' = supply) ∨
      ∃ leaf t leaf', record.resolve? plan.path = some leaf ∧
        Transform.bind c action plan.parameter = .ok t ∧
        result = record.replace plan.path leaf' ∧ count = 1 ∧ leaf'.shape = leaf.shape ∧
        t.Visit leaf.elements supply leaf'.elements none supply' := by
  cases hr : record.resolve? plan.path with
  | none =>
    rw [run_skip supply hr] at h
    cases h
    exact .inl ⟨rfl, rfl, rfl, rfl⟩
  | some leaf =>
    cases hb : Transform.bind c action plan.parameter with
    | error e =>
      rw [run_unbound supply hr hb] at h
      cases h
    | ok t =>
      obtain ⟨hs, hv⟩ := t.leaf_visit leaf supply
      rw [run_bound supply hr hb] at h
      rcases hl : t.leaf leaf supply with ⟨⟨leaf', fault⟩, supply₁⟩
      rw [hl] at h hs hv
      cases fault with
      | some fault => cases h
      | none =>
        cases h
        exact .inr ⟨leaf, t, leaf', rfl, rfl, rfl, rfl, hs, hv⟩

/-- A plan that fails has no capability, or one of its elements failed. -/
theorem run_error {e : TransformError}
    (h : plan.run c action record supply = ((result, .error e), supply')) :
    ∃ leaf, record.resolve? plan.path = some leaf ∧
      ((∃ x, Transform.bind c action plan.parameter = .error x ∧ result = record ∧
          e = plan.fail action .whole ⟨.ofAction action, .capability x⟩) ∨
        ∃ t leaf' element failure, Transform.bind c action plan.parameter = .ok t ∧
          result = record.replace plan.path leaf' ∧ leaf'.shape = leaf.shape ∧
          t.Visit leaf.elements supply leaf'.elements (some (element, failure)) supply' ∧
          e = plan.fail action element failure) := by
  cases hr : record.resolve? plan.path with
  | none =>
    rw [run_skip supply hr] at h
    cases h
  | some leaf =>
    refine ⟨leaf, rfl, ?_⟩
    cases hb : Transform.bind c action plan.parameter with
    | error x =>
      rw [run_unbound supply hr hb] at h
      cases h
      exact .inl ⟨x, rfl, rfl, rfl⟩
    | ok t =>
      obtain ⟨hs, hv⟩ := t.leaf_visit leaf supply
      rw [run_bound supply hr hb] at h
      rcases hl : t.leaf leaf supply with ⟨⟨leaf', fault⟩, supply₁⟩
      rw [hl] at h hs hv
      cases fault with
      | none => cases h
      | some fault =>
        cases h
        exact .inr ⟨t, leaf', fault.1, fault.2, rfl, rfl, hs, hv, rfl⟩

/-- Whatever becomes of a plan, it writes at its own path only. -/
theorem run_resolve? (c : Capabilities) (action : Action) (record : Record) (supply : Entropy)
    {path : List Nat} (h : plan.path ≠ path) :
    (plan.run c action record supply).1.1.resolve? path = record.resolve? path := by
  rcases hr : plan.run c action record supply with ⟨⟨result, outcome⟩, supply'⟩
  cases outcome with
  | ok count =>
    rcases run_ok hr with ⟨-, rfl, -⟩ | ⟨_, _, leaf', -, -, rfl, -⟩
    · rfl
    · exact Record.resolve?_replace_ne record _ _ leaf' h
  | error e =>
    obtain ⟨_, -, ⟨_, -, rfl, -⟩ | ⟨_, leaf', _, _, -, rfl, -⟩⟩ := run_error hr
    · rfl
    · exact Record.resolve?_replace_ne record _ _ leaf' h

end FieldPlan

/-! ### Plans in order -/

variable {plan : FieldPlan} {plans rest : List FieldPlan}

theorem traverse_cons (plan : FieldPlan) (rest : List FieldPlan) (record : Record)
    (supply : Entropy) :
    traverse c action (plan :: rest) record supply =
      match plan.run c action record supply with
      | ((mid, .error e), supply₁) => ((mid, .error e), supply₁)
      | ((mid, .ok n), supply₁) =>
        let out := traverse c action rest mid supply₁
        ((out.1.1, out.1.2.map (n + ·)), out.2) := by
  rw [traverse, State.bind_apply]
  rcases plan.run c action record supply with ⟨⟨mid, outcome⟩, supply₁⟩
  cases outcome <;> rfl

theorem traverse_cons_ok {count : Nat} :
    traverse c action (plan :: rest) record supply = ((result, .ok count), supply') ↔
      ∃ mid n supply₁ m, plan.run c action record supply = ((mid, .ok n), supply₁) ∧
        traverse c action rest mid supply₁ = ((result, .ok m), supply') ∧ count = n + m := by
  rw [traverse_cons]
  rcases hr : plan.run c action record supply with ⟨⟨mid, outcome⟩, supply₁⟩
  cases outcome with
  | error e =>
    constructor
    · intro h
      cases h
    · intro h
      obtain ⟨_, _, _, _, h, -⟩ := h
      cases h
  | ok n =>
    rcases ht : traverse c action rest mid supply₁ with ⟨⟨last, outcome⟩, supply₂⟩
    constructor
    · intro h
      simp only [ht] at h
      cases outcome with
      | error e => cases h
      | ok m =>
        cases h
        exact ⟨mid, n, supply₁, m, rfl, ht, rfl⟩
    · intro h
      obtain ⟨_, _, _, m, h, h', rfl⟩ := h
      cases h
      rw [ht] at h'
      cases h'
      simp only [ht]
      rfl

/-- A traversal that fails got through the plans before the one that failed. -/
theorem traverse_error {e : TransformError}
    (h : traverse c action plans record supply = ((result, .error e), supply')) :
    ∃ k plan mid n supply₁, plans[k]? = some plan ∧
      traverse c action (plans.take k) record supply = ((mid, .ok n), supply₁) ∧
      plan.run c action mid supply₁ = ((result, .error e), supply') := by
  induction plans generalizing record supply with
  | nil => cases h
  | cons first rest ih =>
    rw [traverse_cons] at h
    rcases hr : first.run c action record supply with ⟨⟨mid, outcome⟩, supply₁⟩
    rw [hr] at h
    cases outcome with
    | error x =>
      cases h
      exact ⟨0, first, record, 0, supply, rfl, rfl, hr⟩
    | ok n =>
      rcases ht : traverse c action rest mid supply₁ with ⟨⟨last, outcome⟩, supply₂⟩
      simp only [ht] at h
      cases outcome with
      | ok m => cases h
      | error x =>
        cases h
        obtain ⟨k, plan, mid', m, supply₃, hk, hbefore, hplan⟩ := ih ht
        exact ⟨k + 1, plan, mid', n + m, supply₃, hk,
          traverse_cons_ok.mpr ⟨mid, n, supply₁, m, hr, hbefore, rfl⟩, hplan⟩

/-- Nothing succeeds that takes in a plan which fails where it is reached. -/
theorem traverse_take_of_error {k n : Nat} {mid : Record} {supply₁ : Entropy} {e : TransformError}
    (hk : plans[k]? = some plan)
    (hbefore : traverse c action (plans.take k) record supply = ((mid, .ok n), supply₁))
    (hplan : plan.run c action mid supply₁ = ((result, .error e), supply')) (j : Nat) (hj : k < j) :
    traverse c action (plans.take j) record supply = ((result, .error e), supply') := by
  induction plans generalizing record supply k j n with
  | nil => cases hk
  | cons first rest ih =>
    obtain ⟨j, rfl⟩ : ∃ i, j = i + 1 := ⟨j - 1, by omega⟩
    rw [List.take_succ_cons, traverse_cons]
    cases k with
    | zero =>
      cases hk
      cases hbefore
      rw [hplan]
    | succ k =>
      rw [List.take_succ_cons] at hbefore
      obtain ⟨mid', m, supply₂, l, hfirst, hrest, -⟩ := traverse_cons_ok.mp hbefore
      rw [hfirst]
      simp only [ih hk hrest j (by omega)]
      rfl

/-! ### Plans with distinct paths -/

/-- **A traversal that succeeds writes the leaf of every plan that reaches one**, each from what
the leaf was at the start, and counts the writes. -/
theorem traverse_ok {count : Nat} (distinct : (plans.map FieldPlan.path).Nodup)
    (h : traverse c action plans record supply = ((result, .ok count), supply')) :
    ∃ changes : List (List Nat × Leaf), result = record.replaceAll changes ∧
      changes.map Prod.fst = (plans.filter (·.present record)).map FieldPlan.path ∧
      count = changes.length ∧
      ∀ plan ∈ plans, ∀ leaf, record.resolve? plan.path = some leaf →
        ∃ t leaf', Transform.bind c action plan.parameter = .ok t ∧ (plan.path, leaf') ∈ changes ∧
          leaf'.shape = leaf.shape ∧
          Transform.Elementwise t.Yields leaf.elements leaf'.elements := by
  induction plans generalizing record supply count with
  | nil =>
    cases h
    exact ⟨[], rfl, rfl, rfl, fun plan hp => by cases hp⟩
  | cons first rest ih =>
    rw [List.map_cons, List.nodup_cons] at distinct
    obtain ⟨mid, n, supply₁, m, hfirst, hrest, rfl⟩ := traverse_cons_ok.mp h
    obtain ⟨changes, hresult, hpaths, rfl, hwritten⟩ := ih distinct.2 hrest
    have hkept : ∀ plan ∈ rest, mid.resolve? plan.path = record.resolve? plan.path := by
      intro plan hp
      have hne : first.path ≠ plan.path := fun he =>
        distinct.1 (he ▸ List.mem_map_of_mem (f := FieldPlan.path) hp)
      have hrun := FieldPlan.run_resolve? c action record supply hne
      rwa [hfirst] at hrun
    have hpresent : rest.filter (·.present mid) = rest.filter (·.present record) :=
      List.filter_congr fun plan hp => by rw [FieldPlan.present, FieldPlan.present, hkept plan hp]
    have hlater : ∀ plan ∈ rest, ∀ leaf, record.resolve? plan.path = some leaf →
        ∃ t leaf', Transform.bind c action plan.parameter = .ok t ∧ (plan.path, leaf') ∈ changes ∧
          leaf'.shape = leaf.shape ∧
          Transform.Elementwise t.Yields leaf.elements leaf'.elements :=
      fun plan hp leaf hl => hwritten plan hp leaf (by rw [hkept plan hp, hl])
    rw [hpresent] at hpaths
    rcases FieldPlan.run_ok hfirst with ⟨hnone, rfl, rfl, -⟩ |
      ⟨leaf, t, leaf', hleaf, hbind, rfl, rfl, hshape, hvisit⟩
    · have hskip : first.present mid = false := by rw [FieldPlan.present, hnone]; rfl
      refine ⟨changes, hresult, ?_, by omega, ?_⟩
      · rw [List.filter_cons_of_neg (by simp [hskip]), hpaths]
      · intro plan hp leaf hl
        rcases List.mem_cons.mp hp with rfl | hp
        · rw [hnone] at hl
          cases hl
        · exact hlater plan hp leaf hl
    · have htake : first.present record = true := by rw [FieldPlan.present, hleaf]; rfl
      refine ⟨(first.path, leaf') :: changes, hresult, ?_, ?_, ?_⟩
      · rw [List.filter_cons_of_pos (by simp [htake]), List.map_cons, List.map_cons, hpaths]
      · simp only [List.length_cons]
        omega
      · intro plan hp old hold
        rcases List.mem_cons.mp hp with rfl | hp
        · rw [hleaf] at hold
          cases hold
          exact ⟨t, leaf', hbind, List.mem_cons_self, hshape, hvisit.elementwise⟩
        · obtain ⟨t', new, hb, hmem, hs, he⟩ := hlater plan hp old hold
          exact ⟨t', new, hb, List.mem_cons_of_mem _ hmem, hs, he⟩

/-! ### The record afterwards -/

/-- What no transform touches of a content: the shape of a leaf and the names of its elements, the
presence of a record, hidden data. -/
inductive Frame where
  | leaf (shape : Shape) (names : List Element)
  | record
  | optional (present : Bool)
  | hidden (data : Json)

def Content.frame : Content → Frame
  | .leaf value => .leaf value.shape (value.elements.map Prod.fst)
  | .record _ => .record
  | .optional fields => .optional fields.isSome
  | .hidden data => .hidden data

@[simp] theorem Content.frame_surface (content : Content) :
    content.surface.frame = content.frame := by
  cases content with
  | optional fields => cases fields <;> rfl
  | _ => rfl

/-- The contents at the ends of a path have one frame, if they have one surface. -/
theorem Record.frame_of_surface {a b : Record} {path : List Nat}
    (h : (a.at? path).map Content.surface = (b.at? path).map Content.surface) :
    (a.at? path).map Content.frame = (b.at? path).map Content.frame := by
  have hframe : ∀ content : Option Content,
      content.map Content.frame = (content.map Content.surface).map Content.frame := by
    intro content
    cases content <;> simp
  rw [hframe, h, ← hframe]

/-- Where a leaf is, there is in a record of the same frame a leaf with the same elements by name. -/
theorem Record.exists_leaf_of_frame {a b : Record} {path : List Nat} {leaf : Leaf}
    (h : (b.at? path).map Content.frame = (a.at? path).map Content.frame)
    (hl : a.resolve? path = some leaf) :
    ∃ leaf', b.resolve? path = some leaf' ∧ leaf'.shape = leaf.shape ∧
      leaf'.elements.map Prod.fst = leaf.elements.map Prod.fst := by
  rw [resolve?_eq_some_iff.mp hl, Option.map_some, Option.map_eq_some_iff] at h
  obtain ⟨content, hcontent, hframe⟩ := h
  cases content with
  | leaf leaf' =>
    obtain ⟨hshape, hnames⟩ := Frame.leaf.inj hframe
    exact ⟨leaf', resolve?_eq_some_iff.mpr hcontent, hshape, hnames⟩
  | _ => cases hframe

/-- A write of a leaf with the same frame changes no frame. -/
theorem Record.frame_replace {path : List Nat} {leaf leaf' : Leaf}
    (h : record.resolve? path = some leaf) (shape : leaf'.shape = leaf.shape)
    (names : leaf'.elements.map Prod.fst = leaf.elements.map Prod.fst) (q : List Nat) :
    ((record.replace path leaf').at? q).map Content.frame = (record.at? q).map Content.frame := by
  by_cases hq : path = q
  · subst hq
    have hnew := resolve?_eq_some_iff.mp (resolve?_replace_self leaf' h)
    rw [hnew, resolve?_eq_some_iff.mp h]
    simp only [Option.map_some, Content.frame, shape, names]
  · exact frame_of_surface (surface_replace record path q leaf' hq)

/-- The record after plans were carried out: every leaf that a plan reaches has its elements as
`R plan` relates them to those it had, each under its own name; all other contents are as they
were; and nowhere has a frame changed. -/
structure Applied (R : FieldPlan → Piece → Piece → Prop) (plans : List FieldPlan)
    (record result : Record) : Prop where
  reached : ∀ plan ∈ plans, ∀ leaf, record.resolve? plan.path = some leaf →
    ∃ leaf', result.resolve? plan.path = some leaf' ∧ leaf'.shape = leaf.shape ∧
      Transform.Elementwise (R plan) leaf.elements leaf'.elements
  unreached : ∀ path, (∀ plan ∈ plans, plan.path = path → record.resolve? path = none) →
    (result.at? path).map Content.surface = (record.at? path).map Content.surface
  frames : ∀ path, (result.at? path).map Content.frame = (record.at? path).map Content.frame

/-- Writes that are as they should be, one for each plan that reaches a leaf. -/
theorem applied_replaceAll {R : FieldPlan → Piece → Piece → Prop}
    {changes : List (List Nat × Leaf)} (distinct : (plans.map FieldPlan.path).Nodup)
    (hpaths : changes.map Prod.fst = (plans.filter (·.present record)).map FieldPlan.path)
    (hwritten : ∀ plan ∈ plans, ∀ leaf, record.resolve? plan.path = some leaf →
      ∃ leaf', (plan.path, leaf') ∈ changes ∧ leaf'.shape = leaf.shape ∧
        Transform.Elementwise (R plan) leaf.elements leaf'.elements) :
    Applied R plans record (record.replaceAll changes) := by
  have hnodup : (changes.map Prod.fst).Nodup := by
    rw [hpaths]
    exact distinct.sublist (List.Sublist.map _ List.filter_sublist)
  have hreached : ∀ plan ∈ plans, ∀ leaf, record.resolve? plan.path = some leaf →
      ∃ leaf', (record.replaceAll changes).resolve? plan.path = some leaf' ∧
        leaf'.shape = leaf.shape ∧
        Transform.Elementwise (R plan) leaf.elements leaf'.elements := by
    intro plan hp leaf hl
    obtain ⟨leaf', hmem, hs, he⟩ := hwritten plan hp leaf hl
    exact ⟨leaf', Record.resolve?_replaceAll_of_mem hnodup hl hmem, hs, he⟩
  have hunreached : ∀ path, (∀ plan ∈ plans, plan.path = path → record.resolve? path = none) →
      ((record.replaceAll changes).at? path).map Content.surface =
        (record.at? path).map Content.surface := by
    intro path hpath
    apply Record.surface_replaceAll
    rw [hpaths]
    intro hmem
    obtain ⟨plan, hplan, rfl⟩ := List.mem_map.mp hmem
    obtain ⟨hp, hpresent⟩ := List.mem_filter.mp hplan
    simp [FieldPlan.present, hpath plan hp rfl] at hpresent
  refine ⟨hreached, hunreached, fun path => ?_⟩
  by_cases hpath : ∀ plan ∈ plans, plan.path = path → record.resolve? path = none
  · exact Record.frame_of_surface (hunreached path hpath)
  · simp only [not_forall] at hpath
    obtain ⟨plan, hp, rfl, hsome⟩ := hpath
    obtain ⟨leaf, hl⟩ := Option.ne_none_iff_exists'.mp hsome
    obtain ⟨leaf', hl', hs, he⟩ := hreached plan hp leaf hl
    rw [Record.resolve?_eq_some_iff.mp hl, Record.resolve?_eq_some_iff.mp hl']
    simp only [Option.map_some, Content.frame, hs, he.names]

theorem Applied.imp {R S : FieldPlan → Piece → Piece → Prop}
    (h : Applied R plans record result)
    (imp : ∀ plan ∈ plans, ∀ p q, R plan p q → S plan p q) : Applied S plans record result := by
  refine ⟨fun plan hp leaf hl => ?_, h.unreached, h.frames⟩
  obtain ⟨leaf', hl', hs, he⟩ := h.reached plan hp leaf hl
  exact ⟨leaf', hl', hs, he.imp fun a b hab => ⟨hab.1, imp plan hp _ _ hab.2⟩⟩

/-- A leaf stays a leaf, with the same elements by name. -/
theorem Applied.exists_leaf {R : FieldPlan → Piece → Piece → Prop} {path : List Nat} {leaf : Leaf}
    (h : Applied R plans record result) (hl : record.resolve? path = some leaf) :
    ∃ leaf', result.resolve? path = some leaf' ∧ leaf'.shape = leaf.shape ∧
      leaf'.elements.map Prod.fst = leaf.elements.map Prod.fst :=
  Record.exists_leaf_of_frame (h.frames path) hl

/-- What a plan may answer on a piece, given the right draws. -/
def FieldPlan.Yields (plan : FieldPlan) (c : Capabilities) (action : Action)
    (before after : Piece) : Prop :=
  ∃ t, Transform.bind c action plan.parameter = .ok t ∧ t.Yields before after

/-- The effect and the count of a traversal that succeeds. -/
theorem traverse_yields {count : Nat} (distinct : (plans.map FieldPlan.path).Nodup)
    (h : traverse c action plans record supply = ((result, .ok count), supply')) :
    Applied (fun plan => plan.Yields c action) plans record result ∧
      count = plans.countP (·.present record) := by
  obtain ⟨changes, rfl, hpaths, rfl, hwritten⟩ := traverse_ok distinct h
  refine ⟨applied_replaceAll distinct hpaths fun plan hp leaf hl => ?_, ?_⟩
  · obtain ⟨t, leaf', hbind, hmem, hs, he⟩ := hwritten plan hp leaf hl
    exact ⟨leaf', hmem, hs, he.imp fun a b hab => ⟨hab.1, t, hbind, hab.2⟩⟩
  · rw [List.countP_eq_length_filter, ← List.length_map (f := FieldPlan.path), ← hpaths,
      List.length_map]

end RecordPrivacy
