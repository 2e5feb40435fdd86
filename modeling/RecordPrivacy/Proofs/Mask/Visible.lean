import RecordPrivacy.Capability.Masker
import Mathlib.Data.List.DropRight
import Mathlib.Data.List.TakeDrop

/-! What masks reveal.

Of a text the mask of a format lets be seen its visible part, as the format declares it, and nothing
else: texts with the same visible part are answered alike, be it with the same masked text or with
the same refusal (`builtin_alike`). There is one lemma for each format, which follows the branches
of its mask and finds that the visible part decides each of them. -/
namespace RecordPrivacy

/-- What may be seen of a text through the mask of a format: how many digits there are and how they
are set out, with the last of them if their number is a good one; the ends of a mail address or of an
account number; the lengths of segments and the first of them; the lengths of words and what each of
them begins with; the network that an address belongs to, or else why it is not one. -/
inductive Visible where
  | ssn (count : Nat) (last : Option (List Char))
  | phone (count : Nat) (last : Option (List Char)) (bracket : Bool)
  | card (count : Nat) (last : Option (List Char)) (separator : Option Char)
  | email (parts : Option (Char × List Char))
  | uuid (lengths : List Nat) (first : Option (List Char))
  | iban (length : Nat) (first last : List Char)
  | name (words : List (Option Char × Nat))
  | ipv4 (first second : List Char)
  | ipv6 (colon : Bool) (groups : Option (List (List Char)))
  deriving DecidableEq

namespace Mask

/-- The last four digits, of a text that has a good number of them. -/
def lastDigits? (good : Nat → Bool) (text : List Char) : Option (List Char) :=
  if good (digits text).length then some ((digits text).rtake 4) else none

/-- The character that groups of digits are taken to be separated by: a space before a dash. -/
def separator? (text : List Char) : Option Char :=
  if ' ' ∈ text then some ' ' else if '-' ∈ text then some '-' else none

/-- The first character and everything from the last at sign on, if there is an at sign and it does
not stand at the start. -/
def mailParts? : List Char → Option (Char × List Char)
  | [] => none
  | first :: rest =>
    if '@' ∈ rest then some (first, '@' :: rest.rtakeWhile (· ≠ '@')) else none

/-- The first four groups of a text that expands to eight. -/
def networkGroups? (text : List Char) : Option (List (List Char)) :=
  (expandGroups text).bind fun groups => if groups.length = 8 then some (groups.take 4) else none

end Mask

/-- The visible part of a text. -/
def MaskFormat.visible (format : MaskFormat) (text : List Char) : Visible :=
  match format with
  | .ssn => .ssn (Mask.digits text).length (Mask.lastDigits? (· = 9) text)
  | .phone =>
    .phone (Mask.digits text).length (Mask.lastDigits? (7 ≤ ·) text) (text.head? = some '(')
  | .card =>
    .card (Mask.digits text).length (Mask.lastDigits? (fun n => 13 ≤ n ∧ n ≤ 19) text)
      (Mask.separator? text)
  | .email => .email (Mask.mailParts? text)
  | .uuid => .uuid ((text.splitOn '-').map List.length) (text.splitOn '-').head?
  | .iban => .iban text.length (text.take 4) (text.rtake 4)
  | .name => .name ((Text.words text).map fun word => (word.head?, word.length))
  | .ip =>
    match text.splitOn '.' with
    | [first, second, _, _] => .ipv4 first second
    | _ => .ipv6 (':' ∈ text) (Mask.networkGroups? text)

namespace Mask
variable {a b : List Char}

/-! ### Digits -/

theorem lastFour_eq_of_lastDigits? {good : Nat → Bool} (h : lastDigits? good a = lastDigits? good b)
    (hgood : good (digits a).length = true) (hcount : (digits a).length = (digits b).length) :
    lastFour (digits a) = lastFour (digits b) := by
  have hb : good (digits b).length = true := hcount ▸ hgood
  simp only [lastDigits?, hgood, hb, if_true] at h
  exact Option.some.inj h

theorem ssn_alike (h : MaskFormat.visible .ssn a = MaskFormat.visible .ssn b) : ssn a = ssn b := by
  obtain ⟨hcount, hlast⟩ := Visible.ssn.inj h
  by_cases hnine : (digits a).length = 9
  · have hfour := lastFour_eq_of_lastDigits? hlast (by simp [hnine]) hcount
    simp only [ssn, ← hcount, hfour]
  · simp only [ssn, ← hcount, if_neg hnine]

theorem phone_alike (h : MaskFormat.visible .phone a = MaskFormat.visible .phone b) :
    phone a = phone b := by
  obtain ⟨hcount, hlast, hbracket⟩ := Visible.phone.inj h
  rw [decide_eq_decide] at hbracket
  by_cases hseven : (digits a).length < 7
  · simp only [phone, ← hcount, if_pos hseven]
  · have hfour := lastFour_eq_of_lastDigits? hlast (by simpa using hseven) hcount
    simp only [phone, ← hcount, hfour, hbracket]

theorem card_eq (text : List Char)
    (h : ¬ ((digits text).length < 13 ∨ 19 < (digits text).length)) :
    card text = .ok (match separator? text with
      | some separator =>
        starGroups separator (((digits text).length - 4 + 3) / 4) ++ lastFour (digits text)
      | none => keep 0 4 (digits text)) := by
  simp only [card, if_neg h, separator?]
  by_cases hspace : ' ' ∈ text
  · simp only [if_pos hspace]
  · by_cases hdash : '-' ∈ text
    · simp only [if_neg hspace, if_pos hdash]
    · simp only [if_neg hspace, if_neg hdash]

theorem keep_eq {front back : Nat} {text : List Char} (h : front + back < text.length) :
    keep front back text =
      text.take front ++ List.replicate (text.length - front - back) star ++ text.rtake back := by
  have hlast : front + (text.length - front - back) = text.length - back := by omega
  simp only [keep, if_neg (by omega : ¬ text.length ≤ front + back), hlast, List.rtake]

theorem card_alike (h : MaskFormat.visible .card a = MaskFormat.visible .card b) :
    card a = card b := by
  obtain ⟨hcount, hlast, hseparator⟩ := Visible.card.inj h
  by_cases hrange : (digits a).length < 13 ∨ 19 < (digits a).length
  · simp only [card, ← hcount, if_pos hrange]
  · have hfour := lastFour_eq_of_lastDigits? hlast (by simpa using hrange) hcount
    have hstars : keep 0 4 (digits a) = keep 0 4 (digits b) := by
      rw [keep_eq (by omega), keep_eq (by omega), ← hcount]
      simp only [List.take_zero]
      exact congrArg _ hfour
    rw [card_eq a hrange, card_eq b (hcount ▸ hrange), hseparator, hcount, hfour, hstars]

/-! ### Mail addresses -/

section
variable {domain text : List Char}

theorem reverse_ne_at (h : '@' ∉ text) : ∀ c ∈ text.reverse, decide (c ≠ '@') = true := by
  intro c hc
  exact decide_eq_true fun he => h (he ▸ List.mem_reverse.mp hc)

theorem rtakeWhile_at (before : List Char) (h : '@' ∉ domain) :
    (before ++ '@' :: domain).rtakeWhile (· ≠ '@') = domain := by
  rw [List.rtakeWhile, List.reverse_append, List.reverse_cons, List.append_assoc,
    List.takeWhile_append_of_pos (reverse_ne_at h)]
  simp

theorem splitAddress_at (before : List Char) (h : '@' ∉ domain) :
    splitAddress (before ++ '@' :: domain) = some (before, '@' :: domain) := by
  rw [splitAddress, List.span_eq_takeWhile_dropWhile, List.reverse_append, List.reverse_cons,
    List.append_assoc, List.takeWhile_append_of_pos (reverse_ne_at h),
    List.dropWhile_append_of_pos (reverse_ne_at h)]
  simp

theorem splitAddress_of_not_mem (h : '@' ∉ text) : splitAddress text = none := by
  rw [splitAddress, List.span_eq_takeWhile_dropWhile,
    List.dropWhile_eq_nil_iff.mpr (reverse_ne_at h)]

/-- Of at signs one is the last. -/
theorem exists_last_at (h : '@' ∈ text) :
    ∃ before domain, text = before ++ '@' :: domain ∧ '@' ∉ domain := by
  obtain ⟨front, back, hsplit, hfront⟩ := List.eq_append_cons_of_mem (List.mem_reverse.mpr h)
  refine ⟨back.reverse, front.reverse, ?_, fun hmem => hfront (List.mem_reverse.mp hmem)⟩
  rw [← List.reverse_reverse text, hsplit]
  simp

end

theorem email_eq (text : List Char) :
    email text = match mailParts? text with
      | some (first, domain) => .ok (first :: "***".toList ++ domain)
      | none => .error "missing or misplaced @" := by
  cases text with
  | nil => rfl
  | cons first rest =>
    by_cases hat : '@' ∈ rest
    · obtain ⟨before, domain, rfl, hdomain⟩ := exists_last_at hat
      have hsplit : splitAddress (first :: (before ++ '@' :: domain)) =
          some (first :: before, '@' :: domain) := splitAddress_at (first :: before) hdomain
      simp only [email, hsplit, mailParts?, if_pos hat, rtakeWhile_at before hdomain]
    · have hnone : mailParts? (first :: rest) = none := if_neg hat
      rw [hnone]
      by_cases hfirst : first = '@'
      · subst hfirst
        have hsplit : splitAddress ('@' :: rest) = some ([], '@' :: rest) := splitAddress_at [] hat
        simp only [email, hsplit]
      · have hnot : '@' ∉ first :: rest := fun hmem =>
          (List.mem_cons.mp hmem).elim (fun he => hfirst he.symm) hat
        simp only [email, splitAddress_of_not_mem hnot]

theorem email_alike (h : MaskFormat.visible .email a = MaskFormat.visible .email b) :
    email a = email b := by
  rw [email_eq, email_eq, Visible.email.inj h]

/-! ### Segments, words and groups -/

theorem lengthFault?_congr {parts parts' : List (List Char)}
    (h : parts.map List.length = parts'.map List.length) (place : Nat) (expected : List Nat) :
    lengthFault? place parts expected = lengthFault? place parts' expected := by
  induction parts generalizing parts' place expected with
  | nil => rw [List.map_eq_nil_iff.mp h.symm]
  | cons part parts ih =>
    cases parts' with
    | nil => cases h
    | cons part' parts' =>
      obtain ⟨hpart, hparts⟩ := List.cons.inj h
      cases expected with
      | nil => rfl
      | cons n rest => simp only [lengthFault?, hpart, ih hparts]

theorem uuid_eq (text : List Char) :
    uuid text =
      if (text.splitOn '-').length = 5 then
        match lengthFault? 1 (text.splitOn '-') uuidLengths with
        | some fault => .error fault
        | none => .ok ((text.splitOn '-').head?.getD [] ++ "-****-****-****-************".toList)
      else .error "requires 5 hyphen-separated segments" := by
  unfold uuid
  split
  · next hfive =>
    rw [hfive]
    rfl
  · next hother =>
    refine (if_neg fun hlength => ?_).symm
    match h : text.splitOn '-', hlength with
    | [a, b, c, d, e], _ => exact hother a b c d e h

theorem uuid_alike (h : MaskFormat.visible .uuid a = MaskFormat.visible .uuid b) :
    uuid a = uuid b := by
  obtain ⟨hlengths, hfirst⟩ := Visible.uuid.inj h
  have hcount : (a.splitOn '-').length = (b.splitOn '-').length := by
    simpa using congrArg List.length hlengths
  rw [uuid_eq, uuid_eq, hcount, lengthFault?_congr hlengths, hfirst]

theorem iban_alike (h : MaskFormat.visible .iban a = MaskFormat.visible .iban b) :
    iban a = iban b := by
  obtain ⟨hlength, hfirst, hlast⟩ := Visible.iban.inj h
  by_cases hrange : a.length < 15 ∨ 34 < a.length
  · simp only [iban, ← hlength, if_pos hrange]
  · have hcountry : a.take 2 = b.take 2 := by
      simpa [List.take_take] using congrArg (List.take 2) hfirst
    have hstars : keep 4 4 a = keep 4 4 b := by
      rw [keep_eq (by omega), keep_eq (by omega), hfirst, hlast, hlength]
    simp only [iban, ← hlength, hcountry, hstars]

/-- A masked word is made from its first character and its length. -/
theorem keep_first :
    keep 1 0 = fun word => word.head?.toList ++ List.replicate (word.length - 1) star := by
  funext word
  cases word with
  | nil => rfl
  | cons first rest =>
    cases rest with
    | nil => rfl
    | cons second rest =>
      rw [keep_eq (by simp)]
      simp

theorem name_eq (text : List Char) :
    name text = match (Text.words text).map fun word => (word.head?, word.length) with
      | [] => .error "name cannot be empty"
      | seen => .ok (joinWords (seen.map fun part =>
          part.1.toList ++ List.replicate (part.2 - 1) star)) := by
  cases hwords : Text.words text with
  | nil => simp only [name, hwords, List.map_nil]
  | cons word rest =>
    simp only [name, hwords, keep_first, List.map_cons, List.map_map, Function.comp_def]

theorem name_alike (h : MaskFormat.visible .name a = MaskFormat.visible .name b) :
    name a = name b := by
  rw [name_eq, name_eq, Visible.name.inj h]

theorem ipv6_eq (text : List Char) :
    ipv6 text = match networkGroups? text with
      | some [a, b, c, d] => .ok (a ++ ':' :: b ++ ':' :: c ++ ':' :: d ++ hiddenGroups)
      | _ => .error "invalid IPv6 address" := by
  unfold ipv6
  split
  · next hgroups => simp [networkGroups?, hgroups]
  · next hother =>
    have hnone : networkGroups? text = none := by
      cases hgroups : expandGroups text with
      | none => simp [networkGroups?, hgroups]
      | some groups =>
        rw [networkGroups?, hgroups, Option.bind_some]
        refine if_neg fun hlength => ?_
        match groups, hlength with
        | [a, b, c, d, e, f, g, i], _ => exact hother a b c d e f g i hgroups
    rw [hnone]

theorem ip_of_not_four {text : List Char} (h : ∀ a b c d, text.splitOn '.' ≠ [a, b, c, d]) :
    ip text = if ':' ∈ text then ipv6 text else .error "not an IPv4 or IPv6 address" := by
  unfold ip
  split
  · next hfour => exact absurd hfour (h _ _ _ _)
  · rfl

theorem ip_alike (h : MaskFormat.visible .ip a = MaskFormat.visible .ip b) : ip a = ip b := by
  simp only [MaskFormat.visible] at h
  split at h
  · next ha =>
    split at h
    · next hb =>
      obtain ⟨rfl, rfl⟩ := Visible.ipv4.inj h
      simp only [ip, ha, hb]
    · cases h
  · next ha =>
    split at h
    · cases h
    · next hb =>
      obtain ⟨hcolon, hgroups⟩ := Visible.ipv6.inj h
      rw [decide_eq_decide] at hcolon
      simp only [ip_of_not_four ha, ip_of_not_four hb, ipv6_eq, hcolon, hgroups]

end Mask

theorem MaskFormat.apply_alike {format : MaskFormat} {a b : List Char}
    (h : format.visible a = format.visible b) : format.apply a = format.apply b := by
  cases format with
  | ssn => exact Mask.ssn_alike h
  | email => exact Mask.email_alike h
  | phone => exact Mask.phone_alike h
  | card => exact Mask.card_alike h
  | ip => exact Mask.ip_alike h
  | uuid => exact Mask.uuid_alike h
  | iban => exact Mask.iban_alike h
  | name => exact Mask.name_alike h

/-- **A mask reveals the visible part of a text and nothing else.** Two texts with the same visible
part are answered alike, be it with what is left of them or with a refusal, whose reason is all that
it tells. -/
theorem Masker.builtin_alike (format : MaskFormat) (a b : String)
    (h : format.visible a.toList = format.visible b.toList) :
    (Masker.builtin format).mask a = (Masker.builtin format).mask b := by
  have happly : format.apply a.toList = format.apply b.toList := MaskFormat.apply_alike h
  simp only [Masker.builtin, MaskFormat.mask, happly]

/-- Two addresses that are masked alike, and two numbers that are refused alike. -/
theorem Masker.texts_alike :
    (Masker.builtin .ip).mask "2001:db8::7" = (Masker.builtin .ip).mask "2001:db8:0000:0000::1" ∧
      (Masker.builtin .email).mask "ann@home@x.org" = (Masker.builtin .email).mask "al@x.org" ∧
      (Masker.builtin .ssn).mask "12-34" = (Masker.builtin .ssn).mask "(987) 6" :=
  ⟨builtin_alike .ip _ _ (by decide), builtin_alike .email _ _ (by decide),
    builtin_alike .ssn _ _ (by decide)⟩

end RecordPrivacy
