import RecordPrivacy.Proofs.Mask.Digits
import RecordPrivacy.Proofs.Text.Words
import Mathlib.Order.Interval.Finset.Nat

/-! Which characters a mask hides, place by place.

A mask that keeps the ends of a text replaces the character in every place between them and leaves the
others as they are, so that the length stays; this holds also where the ends meet or overlap and nothing
is between them (`endsKept_keep`). An account number is masked in this way as a whole, a name word by
word, and the words of what is left are the masked words (`name_iban_placewise`). -/
namespace RecordPrivacy
namespace Mask

variable {front back : Nat} {text masked word : List Char}

/-! ### Ends -/

/-- The places between the ends of a text. -/
def hiddenPlaces (front back : Nat) (text : List Char) : Finset Nat :=
  Finset.Ico front (text.length - back)

/-- What is left of a text of which the ends are kept. -/
structure EndsKept (front back : Nat) (text masked : List Char) : Prop where
  length : masked.length = text.length
  kept : ∀ i, i < front ∨ text.length - back ≤ i → masked[i]? = text[i]?
  hidden : ∀ i ∈ hiddenPlaces front back text, masked[i]? = some '*'

theorem endsKept_keep (front back : Nat) (text : List Char) :
    EndsKept front back text (keep front back text) := by
  by_cases hcovered : text.length ≤ front + back
  · rw [keep, if_pos hcovered]
    refine ⟨rfl, fun _ _ => rfl, fun i hi => ?_⟩
    -- The ends meet, and nothing is between them.
    rw [hiddenPlaces, Finset.mem_Ico] at hi
    omega
  · refine ⟨length_keep front back text, fun i hi => ?kept, fun i hi => ?hidden⟩
    all_goals rw [keep, if_neg hcovered, List.append_assoc]
    case kept =>
      rcases Nat.lt_or_ge i front with hfront | hfront
      · rw [List.getElem?_append_left (by rw [List.length_take]; omega),
          List.getElem?_take_of_lt hfront]
      · have hback : text.length - back ≤ i := hi.resolve_left (Nat.not_lt_of_le hfront)
        rw [List.getElem?_append_right (by rw [List.length_take]; omega),
          List.getElem?_append_right (by rw [List.length_take, List.length_replicate]; omega),
          List.getElem?_drop, List.length_take, List.length_replicate]
        congr 1
        omega
    case hidden =>
      rw [hiddenPlaces, Finset.mem_Ico] at hi
      rw [List.getElem?_append_right (by rw [List.length_take]; omega),
        List.getElem?_append_left (by rw [List.length_take, List.length_replicate]; omega),
        List.getElem?_replicate, List.length_take, if_pos (by omega)]
      rfl

theorem EndsKept.keep_eq (h : EndsKept front back text masked) : keep front back masked = masked := by
  have hagain := endsKept_keep front back masked
  refine List.ext_getElem? fun i => ?_
  by_cases hi : i ∈ hiddenPlaces front back masked
  · rw [hagain.hidden i hi]
    rw [hiddenPlaces, h.length] at hi
    exact (h.hidden i hi).symm
  · rw [hiddenPlaces, Finset.mem_Ico] at hi
    exact hagain.kept i (by omega)

theorem keep_keep (front back : Nat) (text : List Char) :
    keep front back (keep front back text) = keep front back text :=
  (endsKept_keep front back text).keep_eq

theorem mem_keep {c : Char} (h : c ∈ keep front back text) : c ∈ text ∨ c = star := by
  unfold keep at h
  split at h
  · exact .inl h
  · rw [List.mem_append, List.mem_append] at h
    rcases h with (h | h) | h
    · exact .inl (List.mem_of_mem_take h)
    · exact .inr (List.eq_of_mem_replicate h)
    · exact .inl (List.mem_of_mem_drop h)

/-! ### Words -/

/-- What is left of a word: its first character. -/
structure Initialled (word shown : List Char) : Prop where
  length : shown.length = word.length
  first : shown.head? = word.head?
  rest : ∀ c ∈ shown.tail, c = '*'
  single : word.length = 1 → shown = word

theorem initialled_keep (word : List Char) : Initialled word (keep 1 0 word) := by
  refine ⟨length_keep 1 0 word, ?first, ?rest, ?single⟩
  all_goals rw [keep_first]
  case first => cases word <;> rfl
  case rest =>
    cases word with
    | nil => simp
    | cons first rest =>
      intro c hc
      exact List.eq_of_mem_replicate hc
  case single =>
    intro hsingle
    obtain ⟨c, rfl⟩ := List.length_eq_one_iff.mp hsingle
    rfl

theorem isWord_keep (h : Text.IsWord word) : Text.IsWord (keep 1 0 word) := by
  constructor
  · rw [← List.length_pos_iff, length_keep, List.length_pos_iff]
    exact h.nonempty
  · intro c hc
    rcases mem_keep hc with hc | rfl
    · exact h.visible c hc
    · decide

theorem joinWords_cons_cons (word second : List Char) (rest : List (List Char)) :
    joinWords (word :: second :: rest) = word ++ ' ' :: joinWords (second :: rest) :=
  rfl

theorem joinWords_eq (words : List (List Char)) : joinWords words = [' '].intercalate words := by
  induction words with
  | nil => rfl
  | cons word rest ih =>
    cases rest with
    | nil => rw [joinWords, List.intercalate_singleton]
    | cons second rest =>
      rw [joinWords_cons_cons, ih, List.intercalate_cons_cons, List.append_assoc,
        List.singleton_append]

/-- Words that are set a space apart are read one by one. -/
theorem words_joinWords {words : List (List Char)} (h : ∀ word ∈ words, Text.IsWord word) :
    Text.words (joinWords words) = words := by
  induction words with
  | nil => rfl
  | cons word rest ih =>
    rw [List.forall_mem_cons] at h
    cases rest with
    | nil => exact h.1.words_eq
    | cons second rest =>
      have hrest : Text.words (' ' :: joinWords (second :: rest)) = second :: rest := ih h.2
      rw [joinWords_cons_cons, h.1.words_append, hrest]
      intro c hc
      cases hc
      decide

/-- The words that are left of a name are its masked words. -/
theorem words_shown (text : List Char) :
    Text.words (joinWords ((Text.words text).map (keep 1 0))) = (Text.words text).map (keep 1 0) := by
  refine words_joinWords fun shown hmem => ?_
  obtain ⟨word, hword, rfl⟩ := List.mem_map.mp hmem
  exact isWord_keep (Text.isWord_of_mem_words hword)

theorem name_ok_iff : name text = .ok masked ↔
    Text.words text ≠ [] ∧ masked = joinWords ((Text.words text).map (keep 1 0)) := by
  rw [name]
  cases Text.words text with
  | nil => simp
  | cons word rest => rw [ok_eq_ok_iff, and_iff_right (List.cons_ne_nil _ _)]

theorem name_error_iff :
    (∃ reason, name text = .error reason) ↔ ∀ c ∈ text, Text.isBlank c = true := by
  rw [← Text.words_eq_nil_iff, name]
  cases Text.words text with
  | nil => simp
  | cons word rest => simp

theorem iban_ok_iff : iban text = .ok masked ↔
    (15 ≤ text.length ∧ text.length ≤ 34) ∧ (∀ c ∈ text.take 2, isLetter c = true) ∧
      masked = keep 4 4 text := by
  rw [iban, ← List.all_eq_true]
  by_cases hlength : text.length < 15 ∨ 34 < text.length
  · rw [if_pos hlength]
    exact iff_of_false (by simp) fun h => by omega
  · rw [if_neg hlength, and_iff_right (by omega)]
    by_cases hcountry : (text.take 2).all isLetter = true
    · rw [if_pos hcountry, and_iff_right hcountry, ok_eq_ok_iff]
    · rw [if_neg hcountry]
      exact iff_of_false (by simp) fun h => hcountry h.1

/-- What is left of a name: as many words as it has, a space apart, each with its first character. -/
structure NameKept (text masked : List Char) (all shown : List (List Char)) : Prop where
  apart : Text.SetApart text all
  shownApart : Text.SetApart masked shown
  joined : masked = [' '].intercalate shown
  initialled : List.Forall₂ Initialled all shown

theorem nameKept (h : name text = .ok masked) : ∃ all shown, NameKept text masked all shown := by
  obtain ⟨-, rfl⟩ := name_ok_iff.mp h
  refine ⟨_, _, Text.words_eq_iff.mp rfl, Text.words_eq_iff.mp (words_shown text), joinWords_eq _, ?_⟩
  exact List.forall₂_map_right_iff.mpr (List.forall₂_same.mpr fun word _ => initialled_keep word)

end Mask

open Mask

/-- **Masks of names and account numbers hide by places.** A name is refused just if it has no character
that is not blank. Else as many words are left as it has, a space apart; each keeps its length and its
first character, and the others are stars. An account number is accepted just if it has 15 to 34
characters and the first two are letters. Then its first four and its last four characters stay where
they are and every other one is a star, seven of them at least. -/
theorem Masker.name_iban_placewise (text : String) :
    ((∃ e, (builtin .name).mask text = .error e) ↔ ∀ c ∈ text.toList, Text.isBlank c = true) ∧
    ((¬ ∀ c ∈ text.toList, Text.isBlank c = true) → ∃ masked all shown,
      (builtin .name).mask text = .ok masked ∧ NameKept text.toList masked.toList all shown) ∧
    ((∃ masked, (builtin .iban).mask text = .ok masked) ↔
      (15 ≤ text.toList.length ∧ text.toList.length ≤ 34) ∧
        ∀ c ∈ text.toList.take 2, isLetter c = true) ∧
    ∀ masked, (builtin .iban).mask text = .ok masked →
      EndsKept 4 4 text.toList masked.toList ∧ 7 ≤ (hiddenPlaces 4 4 text.toList).card := by
  refine ⟨MaskFormat.refuses_iff.trans name_error_iff, ?kept, ?accepted, ?hidden⟩
  case kept =>
    intro hvisible
    rw [← name_error_iff] at hvisible
    cases hname : name text.toList with
    | error reason => exact absurd ⟨reason, hname⟩ hvisible
    | ok masked =>
      obtain ⟨all, shown, hkept⟩ := nameKept hname
      refine ⟨_, all, shown, MaskFormat.mask_of_apply hname, ?_⟩
      rwa [String.toList_ofList]
  case accepted =>
    refine MaskFormat.accepts_iff.trans ((exists_congr fun _ => iban_ok_iff).trans ?_)
    simp
  case hidden =>
    intro masked h
    obtain ⟨hlength, -, hmasked⟩ := iban_ok_iff.mp (MaskFormat.mask_ok_iff.mp h)
    rw [hmasked]
    refine ⟨endsKept_keep 4 4 _, ?_⟩
    rw [hiddenPlaces, Nat.card_Ico]
    omega

/-- A name in two words and a letter, and the shortest account number. -/
theorem Masker.name_iban_hidden :
    (∃ all shown, NameKept "  Ana   María Ü ".toList "A** M**** Ü".toList all shown) ∧
      EndsKept 4 4 "NO9386011117947".toList "NO93*******7947".toList := by
  obtain ⟨-, hname, -, -⟩ := name_iban_placewise "  Ana   María Ü "
  obtain ⟨-, -, -, hiban⟩ := name_iban_placewise "NO9386011117947"
  obtain ⟨masked, all, shown, hmasked, hkept⟩ :=
    hname fun hblank => absurd (hblank 'A' (by decide)) (by decide)
  have hanswer : (builtin .name).mask "  Ana   María Ü " = .ok "A** M**** Ü" := by decide
  cases hmasked.symm.trans hanswer
  exact ⟨⟨all, shown, hkept⟩, (hiban _ (by decide)).1⟩

end RecordPrivacy
