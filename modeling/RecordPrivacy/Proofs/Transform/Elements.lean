import RecordPrivacy.Proofs.State
import RecordPrivacy.Transform
import Mathlib.Data.List.Forall2

/-! Leaves element by element.

A leaf is its shape and its elements: each has a name, which no transform changes, and a piece of
content, which is a text or a buffer. `Visit` says what a transform does to elements, one after the
other, up to the first that fails; `leaf_visit` says that this is what it does to a leaf of any
shape. -/
namespace RecordPrivacy

/-- What a transform is applied to. -/
inductive Piece where
  | text (value : String)
  | bytes (value : Bytes)
  deriving DecidableEq, Repr

/-! ### The elements of a leaf -/

namespace Leaf

/-- Items with their indices, from `index` on. -/
def numbered (index : Nat) (items : List String) : List (Element × Piece) :=
  (items.zipIdx index).map fun (item, i) => (.item i, .text item)

def keyed (entries : List (Key × String)) : List (Element × Piece) :=
  entries.map fun (key, value) => (.entry key, .text value)

/-- The elements in the order in which they are visited. -/
def elements : Leaf → List (Element × Piece)
  | .text value => [(.whole, .text value)]
  | .bytes value => [(.whole, .bytes value)]
  | .sequence items => numbered 0 items
  | .mapping entries => keyed entries

@[simp] theorem numbered_cons (index : Nat) (item : String) (items : List String) :
    numbered index (item :: items) = (.item index, .text item) :: numbered (index + 1) items := by
  simp [numbered, List.zipIdx_cons]

@[simp] theorem keyed_cons (key : Key) (value : String) (entries : List (Key × String)) :
    keyed ((key, value) :: entries) = (.entry key, .text value) :: keyed entries := rfl

theorem numbered_injective (index : Nat) (a b : List String)
    (h : numbered index a = numbered index b) : a = b := by
  induction a generalizing index b with
  | nil => cases b <;> simp_all [numbered]
  | cons item a ih =>
    cases b with
    | nil => simp [numbered] at h
    | cons other b =>
      simp only [numbered_cons, List.cons.injEq, Prod.mk.injEq, Piece.text.injEq, true_and] at h
      rw [h.1, ih (index + 1) b h.2]

theorem keyed_injective (a b : List (Key × String)) (h : keyed a = keyed b) : a = b := by
  apply List.map_injective_iff.mpr _ h
  intro e e' he
  obtain ⟨k, v⟩ := e
  obtain ⟨k', v'⟩ := e'
  simpa using he

/-- A leaf has no more to it than its shape and its elements. -/
theorem ext_elements {a b : Leaf} (hs : a.shape = b.shape) (he : a.elements = b.elements) :
    a = b := by
  cases a <;> cases b <;> simp_all [shape, elements]
  · exact numbered_injective 0 _ _ he
  · exact keyed_injective _ _ he

end Leaf

namespace Transform

/-- A text with its result as a text again, a buffer as a buffer. -/
def piece (t : Transform) : Piece → Drawn (Except Failure Piece)
  | .text value => return (← t.text value).map .text
  | .bytes value => return (← t.bytes value).map .bytes

/-- The transform may answer `after` on `before`, given the right draws. -/
def Yields (t : Transform) (before after : Piece) : Prop :=
  ∃ supply, (t.piece before supply).1 = .ok after

/-- The transform answers `result` whatever is drawn. -/
def Answers (t : Transform) (before : Piece) (result : Except Failure Piece) : Prop :=
  ∀ supply, (t.piece before supply).1 = result

/-! ### Visiting elements -/

/-- Elements visited in order, with what they are afterwards and the first that failed. -/
inductive Visit (t : Transform) : List (Element × Piece) → Entropy →
    List (Element × Piece) → Option (Element × Failure) → Entropy → Prop
  | nil {supply : Entropy} : Visit t [] supply [] none supply
  | stop {element : Element} {p : Piece} {rest : List (Element × Piece)} {fault : Failure}
      {supply supply' : Entropy} : t.piece p supply = (.error fault, supply') →
      Visit t ((element, p) :: rest) supply ((element, p) :: rest) (some (element, fault)) supply'
  | step {element : Element} {p q : Piece} {rest rest' : List (Element × Piece)}
      {fault : Option (Element × Failure)} {supply supply₁ supply' : Entropy} :
      t.piece p supply = (.ok q, supply₁) → Visit t rest supply₁ rest' fault supply' →
      Visit t ((element, p) :: rest) supply ((element, q) :: rest') fault supply'

variable (t : Transform)

theorem piece_text (value : String) (supply : Entropy) :
    t.piece (.text value) supply =
      ((t.text value supply).1.map .text, (t.text value supply).2) := rfl

theorem piece_bytes (value : Bytes) (supply : Entropy) :
    t.piece (.bytes value) supply =
      ((t.bytes value supply).1.map .bytes, (t.bytes value supply).2) := rfl

theorem items_visit (index : Nat) (items : List String) (supply : Entropy) :
    t.Visit (Leaf.numbered index items) supply
      (Leaf.numbered index (t.items index items supply).1.1) (t.items index items supply).1.2
      (t.items index items supply).2 := by
  induction items generalizing index supply with
  | nil => exact .nil
  | cons item rest ih =>
    rw [items, State.bind_apply, Leaf.numbered_cons]
    rcases h : t.text item supply with ⟨result, supply'⟩
    cases result with
    | error fault =>
      have hp : t.piece (.text item) supply = (.error fault, supply') := by
        rw [piece_text, h]
        rfl
      simp only [State.pure_apply, Leaf.numbered_cons]
      exact .stop hp
    | ok changed =>
      have hp : t.piece (.text item) supply = (.ok (.text changed), supply') := by
        rw [piece_text, h]
        rfl
      simp only [State.bind_apply, State.pure_apply, Leaf.numbered_cons]
      exact .step hp (ih (index + 1) supply')

theorem entries_visit (entries : List (Key × String)) (supply : Entropy) :
    t.Visit (Leaf.keyed entries) supply (Leaf.keyed (t.entries entries supply).1.1)
      (t.entries entries supply).1.2 (t.entries entries supply).2 := by
  induction entries generalizing supply with
  | nil => exact .nil
  | cons entry rest ih =>
    obtain ⟨key, value⟩ := entry
    rw [entries, State.bind_apply, Leaf.keyed_cons]
    rcases h : t.text value supply with ⟨result, supply'⟩
    cases result with
    | error fault =>
      have hp : t.piece (.text value) supply = (.error fault, supply') := by
        rw [piece_text, h]
        rfl
      exact .stop hp
    | ok changed =>
      have hp : t.piece (.text value) supply = (.ok (.text changed), supply') := by
        rw [piece_text, h]
        rfl
      exact .step hp (ih supply')

/-- A leaf of any shape keeps its shape, and its elements are visited. -/
theorem leaf_visit (leaf : Leaf) (supply : Entropy) :
    (t.leaf leaf supply).1.1.shape = leaf.shape ∧
      t.Visit leaf.elements supply (t.leaf leaf supply).1.1.elements (t.leaf leaf supply).1.2
        (t.leaf leaf supply).2 := by
  cases leaf with
  | text value =>
    simp only [Transform.leaf, State.bind_apply]
    rcases h : t.text value supply with ⟨result, supply'⟩
    cases result with
    | error fault => exact ⟨rfl, .stop (by rw [piece_text, h]; rfl)⟩
    | ok changed => exact ⟨rfl, .step (by rw [piece_text, h]; rfl) .nil⟩
  | bytes value =>
    simp only [Transform.leaf, State.bind_apply]
    rcases h : t.bytes value supply with ⟨result, supply'⟩
    cases result with
    | error fault => exact ⟨rfl, .stop (by rw [piece_bytes, h]; rfl)⟩
    | ok changed => exact ⟨rfl, .step (by rw [piece_bytes, h]; rfl) .nil⟩
  | sequence items => exact ⟨rfl, items_visit t 0 items supply⟩
  | mapping entries => exact ⟨rfl, entries_visit t entries supply⟩

/-! ### What a visit says -/

variable {t} {before after : List (Element × Piece)} {fault : Option (Element × Failure)}
  {supply supply' : Entropy}

/-- Elements carried over one by one, each under its name. -/
abbrev Elementwise (R : Piece → Piece → Prop) (before after : List (Element × Piece)) : Prop :=
  List.Forall₂ (fun a b => b.1 = a.1 ∧ R a.2 b.2) before after

namespace Elementwise
variable {R : Piece → Piece → Prop}

/-- No element is lost, added, moved or renamed. -/
theorem names (h : Elementwise R before after) : after.map Prod.fst = before.map Prod.fst := by
  induction h with
  | nil => rfl
  | cons hr _ ih => rw [List.map_cons, List.map_cons, hr.1, ih]

theorem exists_of_mem (h : Elementwise R before after) {e : Element × Piece} (he : e ∈ before) :
    ∃ q, R e.2 q := by
  induction h with
  | nil => cases he
  | cons hr _ ih =>
    rcases List.mem_cons.mp he with rfl | he
    · exact ⟨_, hr.2⟩
    · exact ih he

theorem symm (h : Elementwise R before after) : Elementwise (fun q p => R p q) after before := by
  induction h with
  | nil => exact .nil
  | cons hr _ ih => exact .cons ⟨hr.1.symm, hr.2⟩ ih

end Elementwise

namespace Visit

/-- The names stay also where an element fails. -/
theorem names (h : t.Visit before supply after fault supply') :
    after.map Prod.fst = before.map Prod.fst := by
  induction h with
  | nil => rfl
  | stop _ => rfl
  | step _ _ ih => simp only [List.map_cons, ih]

theorem elementwise (h : t.Visit before supply after none supply') :
    Elementwise t.Yields before after := by
  generalize hf : (none : Option (Element × Failure)) = fault at h
  induction h with
  | nil => exact .nil
  | stop _ => cases hf
  | step hp _ ih => exact .cons ⟨rfl, _, congrArg Prod.fst hp⟩ (ih hf)

/-- A visit that fails: the elements before the one that failed were visited without a failure, and
from there on everything is as it was. -/
theorem split {element : Element} {failure : Failure}
    (h : t.Visit before supply after (some (element, failure)) supply') :
    ∃ done done' rest p supply₁, before = done ++ (element, p) :: rest ∧
      after = done' ++ (element, p) :: rest ∧ t.Visit done supply done' none supply₁ ∧
      t.piece p supply₁ = (.error failure, supply') := by
  generalize hf : some (element, failure) = fault at h
  induction h with
  | nil => cases hf
  | stop hp =>
    cases hf
    exact ⟨[], [], _, _, _, rfl, rfl, .nil, hp⟩
  | @step e p q _ _ _ _ _ _ hp _ ih =>
    obtain ⟨done, done', rest, r, supply₁, hb, ha, hv, hr⟩ := ih hf
    exact ⟨(e, p) :: done, (e, q) :: done', rest, r, supply₁, by rw [hb]; rfl, by rw [ha]; rfl,
      .step hp hv, hr⟩

/-- What is answered, and with which supply, is determined. -/
theorem unique {after₂ : List (Element × Piece)} {fault₂ : Option (Element × Failure)}
    {supply₂ : Entropy} (h : t.Visit before supply after fault supply')
    (h₂ : t.Visit before supply after₂ fault₂ supply₂) :
    after₂ = after ∧ fault₂ = fault ∧ supply₂ = supply' := by
  induction h generalizing after₂ with
  | nil =>
    cases h₂
    exact ⟨rfl, rfl, rfl⟩
  | stop hp =>
    cases h₂ with
    | stop hp₂ =>
      cases hp.symm.trans hp₂
      exact ⟨rfl, rfl, rfl⟩
    | step hp₂ _ => cases hp.symm.trans hp₂
  | step hp _ ih =>
    cases h₂ with
    | stop hp₂ => cases hp.symm.trans hp₂
    | step hp₂ h₂ =>
      cases hp.symm.trans hp₂
      obtain ⟨rfl, rfl, rfl⟩ := ih h₂
      exact ⟨rfl, rfl, rfl⟩

end Visit

end Transform

end RecordPrivacy
