import RecordPrivacy.Proofs.Mask.Positions

/-! Masked texts, masked again.

What has been masked may be masked once more, when a record is sent that was sent before. Where the form
of a text is kept, that of a mail address, of segments, of an account number or of words, the masked text
is a text of the same form, and the mask leaves it as it is. Of a number, on the other hand, four digits
are left, which are too few for any number. In neither case does more come to light (`builtin_again`). -/
namespace RecordPrivacy
namespace Mask

variable {text masked : List Char}

/-! ### Forms that are kept -/

section
variable {first : Char} {before domain : List Char}

theorem mailParts?_at (first : Char) (before : List Char) (h : '@' ∉ domain) :
    mailParts? (first :: (before ++ '@' :: domain)) = some (first, '@' :: domain) := by
  rw [mailParts?, if_pos (by simp), rtakeWhile_at before h]

theorem email_ok_iff : email text = .ok masked ↔
    ∃ first before domain, text = first :: (before ++ '@' :: domain) ∧ '@' ∉ domain ∧
      masked = first :: ("***".toList ++ '@' :: domain) := by
  rw [email_eq]
  constructor
  · intro h
    cases text with
    | nil => cases h
    | cons first rest =>
      by_cases hat : '@' ∈ rest
      · obtain ⟨before, domain, rfl, hdomain⟩ := exists_last_at hat
        rw [mailParts?_at first before hdomain] at h
        cases h
        exact ⟨first, before, domain, rfl, hdomain, rfl⟩
      · rw [mailParts?, if_neg hat] at h
        cases h
  · intro h
    obtain ⟨first, before, domain, rfl, hdomain, rfl⟩ := h
    rw [mailParts?_at first before hdomain]
    rfl

end

theorem email_again (h : email text = .ok masked) : email masked = .ok masked := by
  obtain ⟨first, before, domain, -, hdomain, rfl⟩ := email_ok_iff.mp h
  exact email_ok_iff.mpr ⟨first, "***".toList, domain, rfl, hdomain, rfl⟩

theorem lengthFault?_eq_none_iff {parts : List (List Char)} {expected : List Nat} (place : Nat)
    (hlength : parts.length = expected.length) :
    lengthFault? place parts expected = none ↔ parts.map List.length = expected := by
  induction parts generalizing place expected with
  | nil =>
    rw [List.length_nil, eq_comm, List.length_eq_zero_iff] at hlength
    simp [lengthFault?, hlength]
  | cons part parts ih =>
    cases expected with
    | nil => cases hlength
    | cons count expected =>
      have hrest := ih (place + 1) (Nat.succ.inj hlength)
      by_cases hpart : part.length = count
      · simp [lengthFault?, hpart, hrest]
      · simp [lengthFault?, hpart]

theorem uuid_ok_iff : uuid text = .ok masked ↔
    (text.splitOn '-').map List.length = uuidLengths ∧
      masked = (text.splitOn '-').head?.getD [] ++ "-****-****-****-************".toList := by
  rw [uuid_eq]
  by_cases hfive : (text.splitOn '-').length = 5
  · rw [if_pos hfive, ← lengthFault?_eq_none_iff 1 hfive]
    cases lengthFault? 1 (text.splitOn '-') uuidLengths with
    | none => rw [ok_eq_ok_iff, and_iff_right rfl]
    | some fault => simp
  · rw [if_neg hfive]
    refine iff_of_false (by simp) fun h => hfive ?_
    have hcount := congrArg List.length h.1
    rwa [List.length_map] at hcount

theorem not_mem_of_mem_splitOn {separator : Char} {part : List Char}
    (h : part ∈ text.splitOn separator) : separator ∉ part := by
  induction text generalizing part with
  | nil =>
    rw [List.splitOn_nil, List.mem_singleton] at h
    rw [h]
    exact List.not_mem_nil
  | cons c text ih =>
    rw [List.splitOn_cons_eq_if_modifyHead] at h
    by_cases hc : (c == separator) = true
    · rw [if_pos hc] at h
      rcases List.mem_cons.mp h with rfl | h
      · exact List.not_mem_nil
      · exact ih h
    · rw [if_neg hc] at h
      obtain ⟨first, rest, hparts⟩ := List.exists_cons_of_ne_nil (List.splitOn_ne_nil separator text)
      rw [hparts] at h ih
      rcases List.mem_cons.mp h with rfl | h
      · rw [List.mem_cons, not_or]
        exact ⟨fun he => hc (by rw [he, beq_self_eq_true]), ih List.mem_cons_self⟩
      · exact ih (List.mem_cons_of_mem _ h)

theorem uuid_again (h : uuid text = .ok masked) : uuid masked = .ok masked := by
  obtain ⟨hlengths, rfl⟩ := uuid_ok_iff.mp h
  match hparts : text.splitOn '-', hlengths with
  | first :: others, hlengths =>
    have hfirst : '-' ∉ first := not_mem_of_mem_splitOn (hparts ▸ List.mem_cons_self)
    have hstars : "****-****-****-************".toList.splitOn '-' =
        ["****".toList, "****".toList, "****".toList, "************".toList] := by decide
    have hagain : (first ++ "-****-****-****-************".toList).splitOn '-' =
        first :: "****-****-****-************".toList.splitOn '-' :=
      List.splitOn_append_cons_self_of_not_mem hfirst _
    refine uuid_ok_iff.mpr ⟨?_, by rw [List.head?_cons, Option.getD_some, hagain]; rfl⟩
    rw [List.head?_cons, Option.getD_some, hagain, hstars, List.map_cons, (List.cons.inj hlengths).1]
    rfl

theorem iban_again (h : iban text = .ok masked) : iban masked = .ok masked := by
  obtain ⟨hlength, hcountry, rfl⟩ := iban_ok_iff.mp h
  have hends := endsKept_keep 4 4 text
  have hfirst : (keep 4 4 text).take 2 = text.take 2 := by
    refine List.ext_getElem? fun i => ?_
    rw [List.getElem?_take, List.getElem?_take]
    split
    · exact hends.kept i (.inl (by omega))
    · rfl
  refine iban_ok_iff.mpr ⟨by rwa [hends.length], by rwa [hfirst], hends.keep_eq.symm⟩

theorem name_again (h : name text = .ok masked) : name masked = .ok masked := by
  obtain ⟨hwords, rfl⟩ := name_ok_iff.mp h
  refine name_ok_iff.mpr ⟨?_, ?_⟩
  · rw [words_shown]
    simpa using hwords
  · rw [words_shown, List.map_map]
    exact congrArg (fun f => joinWords ((Text.words text).map f)) (funext (keep_keep 1 0)).symm

/-! ### Numbers -/

theorem refused_of_not_ok {α : Type} {answer : Except String α} (h : ∀ a, answer ≠ .ok a) :
    ∃ reason, answer = .error reason := by
  cases answer with
  | error reason => exact ⟨reason, rfl⟩
  | ok a => exact absurd rfl (h a)

/-- Of a number in a dress four digits can be read. -/
theorem length_digits_dressed {front : List Char} (hcount : 4 ≤ (digits text).length)
    (hfront : front ⊆ dress) : (digits (front ++ lastFour (digits text))).length = 4 := by
  have hkeeps := KeepsFour.of_dress hcount hfront
  rw [hkeeps.only, hkeeps.four]

theorem ssn_again (h : ssn text = .ok masked) : ∃ reason, ssn masked = .error reason := by
  obtain ⟨hcount, rfl⟩ := ssn_ok_iff.mp h
  have hfour := @length_digits_dressed text _ (by omega) (show "***-**-".toList ⊆ dress by decide)
  refine refused_of_not_ok fun _ hagain => ?_
  have hnine := (ssn_ok_iff.mp hagain).1
  omega

theorem phone_again (h : phone text = .ok masked) : ∃ reason, phone masked = .error reason := by
  obtain ⟨hcount, rfl⟩ := phone_ok_iff.mp h
  have hfour := @length_digits_dressed text _ (by omega) (phoneDress_subset text)
  refine refused_of_not_ok fun _ hagain => ?_
  have hseven := (phone_ok_iff.mp hagain).1
  omega

theorem card_again (h : card text = .ok masked) : ∃ reason, card masked = .error reason := by
  obtain ⟨⟨hcount, -⟩, rfl⟩ := card_ok_iff.mp h
  have hfour := @length_digits_dressed text _ (by omega) (cardDress_subset text)
  refine refused_of_not_ok fun _ hagain => ?_
  have hthirteen := (card_ok_iff.mp hagain).1.1
  omega

end Mask

/-- **What is masked stays masked.** The mask of mail addresses, of segments, of account numbers and of
names accepts what it has made of a text and leaves it as it is; the mask of a number refuses it. -/
theorem Masker.builtin_again (format : MaskFormat) (text masked : String)
    (h : (builtin format).mask text = .ok masked) :
    (format ∈ [MaskFormat.email, .uuid, .iban, .name] →
      (builtin format).mask masked = .ok masked) ∧
    (format ∈ [MaskFormat.ssn, .phone, .card] →
      ∃ reason, (builtin format).mask masked = .error (.invalidFormat format reason)) := by
  have happly := MaskFormat.mask_ok_iff.mp h
  constructor
  · intro hformat
    refine MaskFormat.mask_ok_iff.mpr ?_
    simp only [List.mem_cons, List.not_mem_nil, or_false] at hformat
    rcases hformat with rfl | rfl | rfl | rfl
    · exact Mask.email_again happly
    · exact Mask.uuid_again happly
    · exact Mask.iban_again happly
    · exact Mask.name_again happly
  · intro hformat
    have hrefused : ∃ reason, format.apply masked.toList = .error reason := by
      simp only [List.mem_cons, List.not_mem_nil, or_false] at hformat
      rcases hformat with rfl | rfl | rfl
      · exact Mask.ssn_again happly
      · exact Mask.phone_again happly
      · exact Mask.card_again happly
    obtain ⟨reason, hreason⟩ := hrefused
    exact ⟨reason, MaskFormat.mask_error_iff.mpr ⟨reason, hreason, rfl⟩⟩

/-- A mail address that starts with an at sign, and a telephone number. -/
theorem Masker.texts_again :
    (builtin .email).mask "@***@x.org" = .ok "@***@x.org" ∧
      ∃ reason, (builtin .phone).mask "***-***-4567" = .error (.invalidFormat .phone reason) :=
  ⟨(builtin_again .email "@ann@x.org" _ (by decide)).1 (by decide),
    (builtin_again .phone "555-123-4567" _ (by decide)).2 (by decide)⟩

end RecordPrivacy
