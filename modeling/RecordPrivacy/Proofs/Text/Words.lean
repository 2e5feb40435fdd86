import RecordPrivacy.Text.Blank

/-! The words of a text.

A text is read from left to right, and a word ends at the next blank. `SetApart` says without a reader what
comes of it: the text is cut into words and the blanks around them, and no word can be made longer. There
is one such cut of every text (`words_eq_iff`). -/
namespace RecordPrivacy.Text

/-- A word has some character, and none that is blank. -/
structure IsWord (word : List Char) : Prop where
  nonempty : word ≠ []
  visible : ∀ c ∈ word, isBlank c = false

/-- The text consists of the words, with blanks around them: in front of each there may be some, and
behind it there is one or the text is at its end. -/
inductive SetApart : List Char → List (List Char) → Prop
  | blanks {text : List Char} : (∀ c ∈ text, isBlank c = true) → SetApart text []
  | word {lead word rest : List Char} {words : List (List Char)} :
      (∀ c ∈ lead, isBlank c = true) → IsWord word → (∀ c ∈ rest.head?, isBlank c = true) →
      SetApart rest words → SetApart (lead ++ (word ++ rest)) (word :: words)

variable {text lead word rest : List Char} {all : List (List Char)}

/-! ### Reading -/

theorem words_blanks_append (h : ∀ c ∈ lead, isBlank c = true) : words (lead ++ rest) = words rest := by
  induction lead with
  | nil => rfl
  | cons c lead ih =>
    rw [List.forall_mem_cons] at h
    rw [List.cons_append, words, wordsFrom, if_pos h.1]
    exact ih h.2

theorem wordsFrom_append (h : ∀ c ∈ word, isBlank c = false) (before rest : List Char) :
    wordsFrom before (word ++ rest) = wordsFrom (word.reverse ++ before) rest := by
  induction word generalizing before with
  | nil => rfl
  | cons c word ih =>
    rw [List.forall_mem_cons] at h
    rw [List.cons_append, wordsFrom, h.1, if_neg (by decide), ih h.2, List.reverse_cons,
      List.append_assoc, List.singleton_append]

/-- At a blank, and at the end, the current word is complete. -/
theorem wordsFrom_complete (hword : word ≠ []) (h : ∀ c ∈ rest.head?, isBlank c = true) :
    wordsFrom word rest = word.reverse :: words rest := by
  have hopen : word.isEmpty = false := List.isEmpty_eq_false_iff.mpr hword
  cases rest with
  | nil => simp [words, wordsFrom, hopen]
  | cons c rest =>
    have hc : isBlank c = true := h c rfl
    simp [words, wordsFrom, hc, hopen]

theorem IsWord.words_append (hword : IsWord word) (h : ∀ c ∈ rest.head?, isBlank c = true) :
    words (word ++ rest) = word :: words rest := by
  have hopen : word.reverse ++ [] ≠ [] := by simp [hword.nonempty]
  rw [words, wordsFrom_append hword.visible, wordsFrom_complete hopen h]
  simp

theorem IsWord.words_eq (hword : IsWord word) : words word = [word] := by
  have hend : words (word ++ []) = word :: words [] := hword.words_append fun _ hc => by cases hc
  rwa [List.append_nil] at hend

theorem SetApart.words_eq (h : SetApart text all) : words text = all := by
  induction h with
  | @blanks text hblank =>
    have hend : words (text ++ []) = words [] := words_blanks_append hblank
    rwa [List.append_nil] at hend
  | word hlead hword hrest _ ih => rw [words_blanks_append hlead, hword.words_append hrest, ih]

/-! ### Cutting -/

theorem SetApart.cons_blank {c : Char} (hc : isBlank c = true) (h : SetApart text all) :
    SetApart (c :: text) all := by
  cases h with
  | blanks hblank => exact .blanks (List.forall_mem_cons.mpr ⟨hc, hblank⟩)
  | word hlead hword hrest hwords =>
    exact .word (List.forall_mem_cons.mpr ⟨hc, hlead⟩) hword hrest hwords

/-- The current word, complete, in front of the rest. -/
theorem SetApart.current (hne : word ≠ []) (hword : ∀ c ∈ word, isBlank c = false)
    (hrest : ∀ c ∈ rest.head?, isBlank c = true) (h : SetApart rest all) :
    SetApart (word.reverse ++ rest) (word.reverse :: all) := by
  have hcurrent : IsWord word.reverse :=
    ⟨by simpa using hne, fun c hc => hword c (List.mem_reverse.mp hc)⟩
  exact @SetApart.word [] _ _ _ (fun _ hc => by cases hc) hcurrent hrest h

/-- Reading cuts the text, whatever the current word is. -/
theorem setApart_wordsFrom (text : List Char) (hword : ∀ c ∈ word, isBlank c = false) :
    SetApart (word.reverse ++ text) (wordsFrom word text) := by
  have hnone : ∀ c ∈ ([] : List Char), isBlank c = false := fun _ hc => by cases hc
  induction text generalizing word with
  | nil =>
    have hend : SetApart [] [] := .blanks fun _ hc => by cases hc
    cases word with
    | nil => exact hend
    | cons c word => exact .current (List.cons_ne_nil _ _) hword (fun _ hc => by cases hc) hend
  | cons c rest ih =>
    rw [wordsFrom]
    by_cases hc : isBlank c = true
    -- A blank completes the current word, if there is one; the reader starts afresh behind it.
    · have hrest : SetApart (c :: rest) (wordsFrom [] rest) := (ih hnone).cons_blank hc
      rw [if_pos hc]
      cases word with
      | nil => exact hrest
      | cons d word =>
        exact .current (List.cons_ne_nil _ _) hword (fun _ hd => by cases hd; exact hc) hrest
    · have hmore := ih (List.forall_mem_cons.mpr ⟨eq_false_of_ne_true hc, hword⟩)
      rw [if_neg hc]
      rwa [List.reverse_cons, List.append_assoc, List.singleton_append] at hmore

theorem words_eq_iff : words text = all ↔ SetApart text all := by
  constructor
  · intro h
    subst h
    exact @setApart_wordsFrom [] text fun _ hc => by cases hc
  · exact SetApart.words_eq

theorem SetApart.isWord (h : SetApart text all) : ∀ word ∈ all, IsWord word := by
  induction h with
  | blanks => exact fun _ hmem => by cases hmem
  | word _ hword _ _ ih => exact List.forall_mem_cons.mpr ⟨hword, ih⟩

theorem isWord_of_mem_words (h : word ∈ words text) : IsWord word :=
  (words_eq_iff.mp rfl).isWord word h

theorem words_eq_nil_iff : words text = [] ↔ ∀ c ∈ text, isBlank c = true := by
  rw [words_eq_iff]
  constructor
  · intro h
    cases h with
    | blanks hblank => exact hblank
  · exact .blanks

end RecordPrivacy.Text
