import RecordPrivacy.Proofs.Traversal.Exact

/-! Masking and redacting, element by element.

A mask answers on a piece what its masker makes of the text, and rejects what the masker rejects and
what is no text at all (`mask_answers_iff`, `masks_or_rejects`). A redaction puts its literal in the
place of every element, whatever it was (`eq_filled`). -/
namespace RecordPrivacy

/-! ### Masks -/

namespace Masker
variable (masker : Masker)

/-- The second piece is the mask of the first. -/
inductive Masks : Piece → Piece → Prop
  | text {value masked : String} : masker.mask value = .ok masked →
      Masks (.text value) (.text masked)
  | bytes {value : Bytes} {text masked : String} : Utf8.decode value = .ok text →
      masker.mask text = .ok masked → Masks (.bytes value) (.bytes (Utf8.encode masked))

/-- The masker refuses the text, or there is none. -/
inductive Rejects : Piece → Prop
  | text {value : String} {x : CapabilityError} : masker.mask value = .error x →
      Rejects (.text value)
  | bytes {value : Bytes} {text : String} {x : CapabilityError} : Utf8.decode value = .ok text →
      masker.mask text = .error x → Rejects (.bytes value)
  | encoding {value : Bytes} {fault : Utf8.Fault} : Utf8.decode value = .error fault →
      Rejects (.bytes value)

variable {masker} {p q : Piece}

theorem masks_or_rejects (masker : Masker) (p : Piece) :
    (∃ q, masker.Masks p q) ∨ masker.Rejects p := by
  cases p with
  | text value =>
    cases hm : masker.mask value with
    | error x => exact .inr (.text hm)
    | ok masked => exact .inl ⟨_, .text hm⟩
  | bytes value =>
    cases hd : Utf8.decode value with
    | error fault => exact .inr (.encoding hd)
    | ok text =>
      cases hm : masker.mask text with
      | error x => exact .inr (.bytes hd hm)
      | ok masked => exact .inl ⟨_, .bytes hd hm⟩

theorem piece_mask_text (value : String) (supply : Entropy) :
    ((Transform.mask masker).piece (.text value) supply).1 =
      ((masker.mask value).mapError (Transform.mask masker).failure).map .text := rfl

theorem piece_mask_bytes (value : Bytes) (supply : Entropy) :
    ((Transform.mask masker).piece (.bytes value) supply).1 =
      (Transform.maskBytes masker value).map .bytes := rfl

theorem Masks.answers (h : masker.Masks p q) : (Transform.mask masker).Answers p (.ok q) := by
  intro supply
  cases h with
  | text hm =>
    rw [piece_mask_text, hm]
    rfl
  | bytes hd hm =>
    rw [piece_mask_bytes]
    simp only [Transform.maskBytes, hd, hm]
    rfl

theorem Rejects.not_answers (h : masker.Rejects p) :
    ¬ (Transform.mask masker).Answers p (.ok q) := by
  intro hanswers
  have hok := hanswers ⟨fun _ => 0, 0⟩
  cases h with
  | text hm =>
    rw [piece_mask_text, hm] at hok
    cases hok
  | bytes hd hm =>
    rw [piece_mask_bytes] at hok
    simp only [Transform.maskBytes, hd, hm] at hok
    cases hok
  | encoding hd =>
    rw [piece_mask_bytes] at hok
    simp only [Transform.maskBytes, hd] at hok
    cases hok

theorem mask_answers_iff : (Transform.mask masker).Answers p (.ok q) ↔ masker.Masks p q := by
  refine ⟨fun h => ?_, Masks.answers⟩
  rcases masker.masks_or_rejects p with ⟨q', hmasks⟩ | hrejects
  · cases (h ⟨fun _ => 0, 0⟩).symm.trans (hmasks.answers _)
    exact hmasks
  · exact absurd h hrejects.not_answers

end Masker

/-! ### Redactions -/

/-- A redaction refuses nothing. -/
theorem Transform.redact_answers (literal : String) (p : Piece) :
    ∃ q, (redact literal).Answers p (.ok q) := by
  cases p with
  | text value => exact ⟨.text literal, fun _ => rfl⟩
  | bytes value => exact ⟨.bytes (Utf8.encode literal), fun _ => rfl⟩

/-- The leaf with the literal in the place of every element. -/
def Leaf.filled (literal : String) : Leaf → Leaf
  | .text _ => .text literal
  | .bytes _ => .bytes (Utf8.encode literal)
  | .sequence items => .sequence (items.map fun _ => literal)
  | .mapping entries => .mapping (entries.map fun (key, _) => (key, literal))

namespace Leaf

/-- Two leaves that differ in the contents of their elements only are filled alike. -/
theorem filled_congr {a b : Leaf} (literal : String) (hs : a.shape = b.shape)
    (hn : a.elements.map Prod.fst = b.elements.map Prod.fst) :
    a.filled literal = b.filled literal := by
  cases a with
  | text value => cases b <;> first | rfl | cases hs
  | bytes value => cases b <;> first | rfl | cases hs
  | sequence items =>
    cases b with
    | sequence items' =>
      have hlength : items.length = items'.length := by
        simpa [elements, numbered] using congrArg List.length hn
      simp [filled, hlength]
    | _ => cases hs
  | mapping entries =>
    cases b with
    | mapping entries' =>
      have hkeys : entries.map Prod.fst = entries'.map Prod.fst := by
        refine List.map_injective_iff.mpr (fun _ _ => Element.entry.inj) ?_
        simpa [elements, keyed, Function.comp_def] using hn
      have hfilled : ∀ l : List (Key × String),
          l.map (fun (key, _) => (key, literal)) = (l.map Prod.fst).map (·, literal) := by
        intro l
        rw [List.map_map]
        rfl
      rw [filled, filled, hfilled, hfilled, hkeys]
    | _ => cases hs

theorem shape_filled (literal : String) (leaf : Leaf) :
    (leaf.filled literal).shape = leaf.shape := by
  cases leaf <;> rfl

theorem elements_filled (literal : String) (leaf : Leaf) :
    (leaf.filled literal).elements =
      leaf.elements.map fun e => (e.1, (Transform.redact literal).answered e.2) := by
  cases leaf with
  | text value => rfl
  | bytes value => rfl
  | sequence items =>
    simp only [filled, elements, numbered, List.zipIdx_map, List.map_map]
    rfl
  | mapping entries =>
    simp only [filled, elements, keyed, List.map_map]
    rfl

/-- A leaf that was redacted is filled with the literal. -/
theorem eq_filled {literal : String} {before after : Leaf} (hs : after.shape = before.shape)
    (he : Transform.Elementwise (fun p q => (Transform.redact literal).Answers p (.ok q))
      before.elements after.elements) : after = before.filled literal := by
  refine ext_elements (hs.trans (shape_filled literal before).symm) ?_
  rw [he.eq_map, elements_filled]

end Leaf

end RecordPrivacy
