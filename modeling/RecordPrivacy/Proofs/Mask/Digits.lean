import RecordPrivacy.Proofs.Mask.Visible
import Mathlib.Algebra.Order.Floor.Div

/-! What is left of a number.

The formats of digits go about it in one way. Digits are counted, and if their count is a good one, the
last four of them are put behind a dress in which there is none (`KeepsFour`). The dress of a telephone
number tells whether there are ten digits or more, that of a card how many there are, in groups or not
(`PhoneForm`, `CardForm`). Where digits are cut is found by counting bytes, of which each digit has one,
so that every cut is made within the text (`lastFour?_eq`). -/
namespace RecordPrivacy
namespace Mask

variable {text masked front : List Char}

/-! ### Cuts -/

/-- How many bytes the text takes. -/
def byteCount (text : List Char) : Nat :=
  (text.map Char.utf8Size).sum

/-- What follows the first bytes of the text, if these end within it and between characters. -/
def dropBytes? : Nat → List Char → Option (List Char)
  | 0, text => some text
  | _ + 1, [] => none
  | count + 1, c :: rest =>
    if c.utf8Size ≤ count + 1 then dropBytes? (count + 1 - c.utf8Size) rest else none

/-- A number less another, unless that is greater. -/
def minus? (n k : Nat) : Option Nat :=
  if k ≤ n then some (n - k) else none

/-- `lastFour` as it goes when bytes are counted and text is cut within its bytes only. -/
def lastFour? (text : List Char) : Option (List Char) := do
  dropBytes? (← minus? (byteCount text) 4) text

/-- `ssn` with such cuts. -/
def ssn? (text : List Char) : Option (Except String (List Char)) :=
  let ds := digits text
  let count := byteCount ds
  if count ≠ 9 then some (.error s!"requires exactly 9 digits, got {count}")
  else do
    return .ok ("***-**-".toList ++ (← lastFour? ds))

/-- `phone` with such cuts. -/
def phone? (text : List Char) : Option (Except String (List Char)) :=
  let ds := digits text
  let count := byteCount ds
  if count < 7 then some (.error s!"requires at least 7 digits, got {count}")
  else do
    let last ← lastFour? ds
    if text.head? = some '(' ∧ 10 ≤ count then return .ok ("(***) ***-".toList ++ last)
    else if 10 ≤ count then return .ok ("***-***-".toList ++ last)
    else return .ok ("***-".toList ++ last)

/-- `card` with such cuts. -/
def card? (text : List Char) : Option (Except String (List Char)) :=
  let ds := digits text
  let count := byteCount ds
  if ¬ (13 ≤ count ∧ count ≤ 19) then some (.error s!"requires 13-19 digits, got {count}")
  else
    match separator? text with
    | none => some (.ok (keep 0 4 ds))
    | some separator => do
      let groups := ((← minus? count 4) + 3) / 4
      return .ok ([separator].intercalate
        (List.replicate groups "****".toList ++ [← lastFour? ds]))

theorem minus?_of_le {n k : Nat} (h : k ≤ n) : minus? n k = some (n - k) :=
  if_pos h

theorem isDigit_of_mem_digits {c : Char} (h : c ∈ digits text) : isDigit c = true :=
  (List.mem_filter.mp h).2

theorem utf8Size_of_isDigit {c : Char} (h : isDigit c = true) : c.utf8Size = 1 := by
  rw [isDigit, Bool.and_eq_true, decide_eq_true_eq, decide_eq_true_eq] at h
  have hnine : c.val ≤ '9'.val := h.2
  exact Char.utf8Size_eq_one_iff.mpr (UInt32.le_trans hnine (by decide))

theorem byteCount_of_size (h : ∀ c ∈ text, c.utf8Size = 1) : byteCount text = text.length := by
  rw [byteCount, List.map_congr_left h, List.map_const', List.sum_replicate_nat, mul_one]

theorem dropBytes?_of_size {count : Nat} (h : ∀ c ∈ text, c.utf8Size = 1)
    (hcount : count ≤ text.length) : dropBytes? count text = some (text.drop count) := by
  induction text generalizing count with
  | nil =>
    obtain rfl := Nat.le_zero.mp hcount
    rfl
  | cons c rest ih =>
    obtain ⟨hc, hrest⟩ := List.forall_mem_cons.mp h
    cases count with
    | zero => rfl
    | succ count =>
      -- With the first byte the whole first character is dropped.
      rw [dropBytes?, hc, if_pos (Nat.le_add_left 1 count), Nat.add_sub_cancel, List.drop_succ_cons]
      exact ih hrest (Nat.le_of_succ_le_succ hcount)

theorem size_of_mem_digits : ∀ c ∈ digits text, c.utf8Size = 1 := fun _ h =>
  utf8Size_of_isDigit (isDigit_of_mem_digits h)

theorem byteCount_digits (text : List Char) : byteCount (digits text) = (digits text).length :=
  byteCount_of_size size_of_mem_digits

/-- Four digits can be cut off from four or more. -/
theorem lastFour?_eq (h : 4 ≤ (digits text).length) :
    lastFour? (digits text) = some (lastFour (digits text)) := by
  rw [lastFour?, byteCount_digits, minus?_of_le h]
  exact dropBytes?_of_size size_of_mem_digits (Nat.sub_le _ _)

/-! ### Dress -/

/-- What a telephone number begins with when it is masked. -/
def phoneDress (text : List Char) : List Char :=
  if (digits text).length < 10 then "***-".toList
  else if text.head? = some '(' then "(***) ***-".toList
  else "***-***-".toList

/-- What a card begins with when it is masked. -/
def cardDress (text : List Char) : List Char :=
  match separator? text with
  | some separator => starGroups separator (((digits text).length - 4 + 3) / 4)
  | none => List.replicate ((digits text).length - 4) star

/-- The groups and what comes behind them, with the separator between any two. -/
theorem starGroups_append (separator : Char) (count : Nat) (last : List Char) :
    starGroups separator count ++ last =
      [separator].intercalate (List.replicate count "****".toList ++ [last]) := by
  induction count with
  | zero => simp [starGroups]
  | succ count ih =>
    rw [List.replicate_succ, List.cons_append, List.intercalate_cons_of_ne_nil (by simp), ← ih]
    rfl

theorem mem_starGroups {separator c : Char} {count : Nat} (h : c ∈ starGroups separator count) :
    c = star ∨ c = separator := by
  induction count with
  | zero => cases h
  | succ count ih =>
    simp only [starGroups, List.mem_cons] at h
    tauto

/-- The characters that a number is dressed in. -/
def dress : List Char := "*-() ".toList

theorem phoneDress_subset (text : List Char) : phoneDress text ⊆ dress := by
  unfold phoneDress
  split
  · decide
  · split <;> decide

theorem separator_mem_dress {separator : Char} (h : separator? text = some separator) :
    separator ∈ dress := by
  unfold separator? at h
  split at h
  · cases h
    decide
  · split at h
    · cases h
      decide
    · cases h

theorem cardDress_subset (text : List Char) : cardDress text ⊆ dress := by
  intro c hc
  unfold cardDress at hc
  split at hc
  · next hseparator =>
    rcases mem_starGroups hc with rfl | rfl
    · decide
    · exact separator_mem_dress hseparator
  · rw [List.eq_of_mem_replicate hc]
    decide

theorem digits_dress : digits dress = [] := by
  decide

/-! ### Accepted texts -/

theorem phone_eq (text : List Char) (h : ¬ (digits text).length < 7) :
    phone text = .ok (phoneDress text ++ lastFour (digits text)) := by
  simp only [phone, if_neg h, phoneDress]
  by_cases hten : (digits text).length < 10
  · simp only [if_pos hten]
  · by_cases hbracket : text.head? = some '('
    · simp only [if_neg hten, if_pos hbracket]
    · simp only [if_neg hten, if_neg hbracket]

theorem ok_eq_ok_iff {ε α : Type} {a b : α} : (Except.ok a : Except ε α) = .ok b ↔ b = a := by
  rw [Except.ok.injEq, eq_comm]

theorem ssn_ok_iff : ssn text = .ok masked ↔
    (digits text).length = 9 ∧ masked = "***-**-".toList ++ lastFour (digits text) := by
  rw [ssn]
  by_cases hnine : (digits text).length = 9
  · rw [if_pos hnine, and_iff_right hnine, ok_eq_ok_iff]
  · rw [if_neg hnine]
    exact iff_of_false (by simp) fun h => hnine h.1

theorem phone_ok_iff : phone text = .ok masked ↔
    7 ≤ (digits text).length ∧ masked = phoneDress text ++ lastFour (digits text) := by
  by_cases hseven : (digits text).length < 7
  · rw [phone, if_pos hseven]
    exact iff_of_false (by simp) fun h => Nat.not_lt_of_le h.1 hseven
  · rw [phone_eq text hseven, and_iff_right (Nat.le_of_not_lt hseven), ok_eq_ok_iff]

theorem card_ok_iff : card text = .ok masked ↔
    (13 ≤ (digits text).length ∧ (digits text).length ≤ 19) ∧
      masked = cardDress text ++ lastFour (digits text) := by
  by_cases hrange : (digits text).length < 13 ∨ 19 < (digits text).length
  · rw [card, if_pos hrange]
    exact iff_of_false (by simp) fun h => by omega
  · rw [card_eq text hrange, and_iff_right (by omega), ok_eq_ok_iff, cardDress]
    cases separator? text with
    | some separator => rfl
    | none =>
      -- Without a separator, too, the last four are what is kept.
      rw [keep_eq (by omega)]
      rfl

/-- What is left of a number: a dress without digits, and behind it the last four. -/
structure KeepsFour (text masked : List Char) : Prop where
  dressed : ∃ front, front ⊆ dress ∧ masked = front ++ (digits text).rtake 4
  four : ((digits text).rtake 4).length = 4
  only : digits masked = (digits text).rtake 4

theorem KeepsFour.of_dress (hcount : 4 ≤ (digits text).length) (hfront : front ⊆ dress) :
    KeepsFour text (front ++ lastFour (digits text)) := by
  refine ⟨⟨front, hfront, rfl⟩, ?four, ?only⟩
  case four =>
    rw [List.rtake, List.length_drop]
    omega
  case only =>
    have hnone : digits front = [] :=
      List.filter_eq_nil_iff.mpr fun c hc => List.filter_eq_nil_iff.mp digits_dress c (hfront hc)
    have hall : digits (lastFour (digits text)) = lastFour (digits text) :=
      List.filter_eq_self.mpr fun c hc => isDigit_of_mem_digits (List.mem_of_mem_drop hc)
    rw [digits, List.filter_append, ← digits, ← digits, hnone, hall]
    rfl

/-! ### Forms -/

/-- The forms of a telephone number, and when it has each of them. -/
structure PhoneForm (text masked : List Char) : Prop where
  short : masked = "***-".toList ++ (digits text).rtake 4 ↔ (digits text).length < 10
  bracketed : masked = "(***) ***-".toList ++ (digits text).rtake 4 ↔
    10 ≤ (digits text).length ∧ text.head? = some '('
  plain : masked = "***-***-".toList ++ (digits text).rtake 4 ↔
    10 ≤ (digits text).length ∧ text.head? ≠ some '('

/-- The form of a card: stars for all but four digits, or groups with separators between them. -/
structure CardForm (text masked : List Char) : Prop where
  plain : ' ' ∉ text → '-' ∉ text →
    masked = List.replicate ((digits text).length - 4) '*' ++ (digits text).rtake 4
  spaced : ' ' ∈ text → masked = [' '].intercalate
    (List.replicate (((digits text).length - 4) ⌈/⌉ 4) "****".toList ++ [(digits text).rtake 4])
  dashed : ' ' ∉ text → '-' ∈ text → masked = ['-'].intercalate
    (List.replicate (((digits text).length - 4) ⌈/⌉ 4) "****".toList ++ [(digits text).rtake 4])

theorem phoneForm (h : phone text = .ok masked) : PhoneForm text masked := by
  obtain ⟨-, rfl⟩ := phone_ok_iff.mp h
  have hform : ∀ front : List Char, phoneDress text ++ lastFour (digits text) =
      front ++ (digits text).rtake 4 ↔ phoneDress text = front :=
    fun front => List.append_left_inj (lastFour (digits text))
  constructor
  all_goals
    rw [hform, phoneDress]
    by_cases hten : (digits text).length < 10
    · simp [hten, Nat.not_le_of_lt hten]
    · by_cases hbracket : text.head? = some '(' <;>
        simp [hten, hbracket, Nat.le_of_not_lt hten]

theorem cardForm (h : card text = .ok masked) : CardForm text masked := by
  obtain ⟨-, rfl⟩ := card_ok_iff.mp h
  have hgroups : ∀ separator, separator? text = some separator →
      cardDress text ++ lastFour (digits text) = [separator].intercalate
        (List.replicate (((digits text).length - 4) ⌈/⌉ 4) "****".toList ++
          [(digits text).rtake 4]) := by
    intro separator hseparator
    rw [cardDress, hseparator]
    exact starGroups_append separator _ _
  refine ⟨fun hspace hdash => ?plain, fun hspace => hgroups ' ' ?spaced,
    fun hspace hdash => hgroups '-' ?dashed⟩
  case plain =>
    rw [cardDress, separator?, if_neg hspace, if_neg hdash]
    rfl
  case spaced => rw [separator?, if_pos hspace]
  case dashed => rw [separator?, if_neg hspace, if_pos hdash]

/-! ### Cuts within the text -/

theorem ssn?_eq (text : List Char) : ssn? text = some (ssn text) := by
  simp only [ssn?, ssn, byteCount_digits]
  by_cases hnine : (digits text).length = 9
  · rw [lastFour?_eq (by omega)]
    simp [hnine]
  · simp [hnine]

theorem phone?_eq (text : List Char) : phone? text = some (phone text) := by
  simp only [phone?, byteCount_digits]
  by_cases hseven : (digits text).length < 7
  · rw [if_pos hseven, phone, if_pos hseven]
  · rw [if_neg hseven, lastFour?_eq (by omega), phone_eq text hseven, phoneDress]
    by_cases hten : (digits text).length < 10
    · simp [hten, Nat.not_le_of_lt hten]
    · by_cases hbracket : text.head? = some '(' <;>
        simp [hten, hbracket, Nat.le_of_not_lt hten]

theorem card?_eq (text : List Char) : card? text = some (card text) := by
  simp only [card?, byteCount_digits]
  by_cases hrange : (digits text).length < 13 ∨ 19 < (digits text).length
  · rw [if_pos (by omega), card, if_pos hrange]
  · rw [if_neg (by omega), card_eq text hrange]
    cases separator? text with
    | none => rfl
    | some separator =>
      have hfour : 4 ≤ (digits text).length := by omega
      simp only [lastFour?_eq hfour, minus?_of_le hfour, starGroups_append]
      rfl

end Mask

theorem MaskFormat.mask_ok_iff {format : MaskFormat} {text masked : String} :
    format.mask text = .ok masked ↔ format.apply text.toList = .ok masked.toList := by
  rw [MaskFormat.mask]
  cases format.apply text.toList with
  | error reason => simp
  | ok result =>
    rw [Except.ok.injEq, Except.ok.injEq]
    constructor
    · rintro rfl
      exact String.toList_ofList.symm
    · rintro rfl
      exact String.ofList_toList

theorem MaskFormat.mask_of_apply {format : MaskFormat} {text : String} {masked : List Char}
    (h : format.apply text.toList = .ok masked) : format.mask text = .ok (String.ofList masked) :=
  mask_ok_iff.mpr (by rw [h, String.toList_ofList])

theorem MaskFormat.mask_error_iff {format : MaskFormat} {text : String} {e : CapabilityError} :
    format.mask text = .error e ↔
      ∃ reason, format.apply text.toList = .error reason ∧ e = .invalidFormat format reason := by
  rw [MaskFormat.mask]
  cases format.apply text.toList with
  | error reason => simp [eq_comm]
  | ok result => simp

/-- A text is accepted if its characters are. -/
theorem MaskFormat.accepts_iff {format : MaskFormat} {text : String} :
    (∃ masked, format.mask text = .ok masked) ↔
      ∃ masked, format.apply text.toList = .ok masked := by
  constructor
  · intro h
    obtain ⟨masked, h⟩ := h
    exact ⟨masked.toList, mask_ok_iff.mp h⟩
  · intro h
    obtain ⟨masked, h⟩ := h
    exact ⟨_, mask_of_apply h⟩

/-- A text is refused if its characters are. -/
theorem MaskFormat.refuses_iff {format : MaskFormat} {text : String} :
    (∃ e, format.mask text = .error e) ↔ ∃ reason, format.apply text.toList = .error reason := by
  constructor
  · intro h
    obtain ⟨_, h⟩ := h
    obtain ⟨reason, hreason, -⟩ := mask_error_iff.mp h
    exact ⟨reason, hreason⟩
  · intro h
    obtain ⟨reason, hreason⟩ := h
    exact ⟨_, mask_error_iff.mpr ⟨reason, hreason, rfl⟩⟩

/-- **Of a number four digits are left.** Social security numbers have nine digits, telephone numbers at
least seven, and cards thirteen to nineteen; no other text is accepted as one. Whatever text is given,
digits are cut off only where there are as many. What is left are the last four, behind a dress that has
no digit; the dress tells of a telephone number whether it has ten digits or more, and of a card how many
it has, one by one or in groups of four. -/
theorem Masker.builtin_keepsFour (text : String) :
    ((∃ masked, (Masker.builtin .ssn).mask text = .ok masked) ↔
      (Mask.digits text.toList).length = 9) ∧
    ((∃ masked, (Masker.builtin .phone).mask text = .ok masked) ↔
      7 ≤ (Mask.digits text.toList).length) ∧
    ((∃ masked, (Masker.builtin .card).mask text = .ok masked) ↔
      13 ≤ (Mask.digits text.toList).length ∧ (Mask.digits text.toList).length ≤ 19) ∧
    (Mask.ssn? text.toList = some (Mask.ssn text.toList) ∧
      Mask.phone? text.toList = some (Mask.phone text.toList) ∧
      Mask.card? text.toList = some (Mask.card text.toList)) ∧
    (∀ format ∈ [MaskFormat.ssn, .phone, .card], ∀ masked,
      (Masker.builtin format).mask text = .ok masked → Mask.KeepsFour text.toList masked.toList) ∧
    (∀ masked, (Masker.builtin .phone).mask text = .ok masked →
      Mask.PhoneForm text.toList masked.toList) ∧
    (∀ masked, (Masker.builtin .card).mask text = .ok masked →
      Mask.CardForm text.toList masked.toList) := by
  refine ⟨?ssn, ?phone, ?card, ⟨Mask.ssn?_eq _, Mask.phone?_eq _, Mask.card?_eq _⟩, ?keeps,
    fun masked h => Mask.phoneForm (MaskFormat.mask_ok_iff.mp h),
    fun masked h => Mask.cardForm (MaskFormat.mask_ok_iff.mp h)⟩
  case ssn =>
    refine MaskFormat.accepts_iff.trans ((exists_congr fun _ => Mask.ssn_ok_iff).trans ?_)
    simp
  case phone =>
    refine MaskFormat.accepts_iff.trans ((exists_congr fun _ => Mask.phone_ok_iff).trans ?_)
    simp
  case card =>
    refine MaskFormat.accepts_iff.trans ((exists_congr fun _ => Mask.card_ok_iff).trans ?_)
    simp
  case keeps =>
    intro format hformat masked h
    have happly := MaskFormat.mask_ok_iff.mp h
    simp only [List.mem_cons, List.not_mem_nil, or_false] at hformat
    rcases hformat with rfl | rfl | rfl
    · obtain ⟨hcount, hmasked⟩ := Mask.ssn_ok_iff.mp happly
      rw [hmasked]
      exact .of_dress (by omega) (by decide)
    · obtain ⟨hcount, hmasked⟩ := Mask.phone_ok_iff.mp happly
      rw [hmasked]
      exact .of_dress (by omega) (Mask.phoneDress_subset _)
    · obtain ⟨⟨hcount, -⟩, hmasked⟩ := Mask.card_ok_iff.mp happly
      rw [hmasked]
      exact .of_dress (by omega) (Mask.cardDress_subset _)

/-- Fifteen digits between spaces make three groups of stars, and a number in brackets keeps them. -/
theorem Masker.numbers_keepFour :
    Mask.KeepsFour "3782 822463 10005".toList "**** **** **** 0005".toList ∧
      Mask.CardForm "3782 822463 10005".toList "**** **** **** 0005".toList ∧
      Mask.PhoneForm "(555) 123-4567".toList "(***) ***-4567".toList := by
  obtain ⟨-, -, -, -, hkeeps, -, hcard⟩ := builtin_keepsFour "3782 822463 10005"
  obtain ⟨-, -, -, -, -, hphone, -⟩ := builtin_keepsFour "(555) 123-4567"
  have hmasked : (Masker.builtin .card).mask "3782 822463 10005" = .ok "**** **** **** 0005" := by
    decide
  exact ⟨hkeeps .card (by decide) _ hmasked, hcard _ hmasked, hphone _ (by decide)⟩

end RecordPrivacy
