import RecordPrivacy.Proofs.Mask.Visible
import Mathlib.Data.List.Infix

/-! Which texts are masked as addresses.

The mask of addresses looks at separators only: three dots are enough, or else colons that set off
eight groups, where a gap makes up for those that are missing (`ip_ok_iff`). Every well-formed
address is among these texts (`ip_of_shows`), and so is many a text that is none (`ip_quad`). Of an
address in hexadecimal groups half is hidden, but one that ends in a dotted part is taken for four
parts between dots, of which the last two are hidden. -/
namespace RecordPrivacy.Mask

/-! ### Addresses -/

/-- A decimal number of one to three digits, up to 255. -/
structure Octet (part : List Char) : Prop where
  nonempty : part ≠ []
  length : part.length ≤ 3
  digits : ∀ c ∈ part, c.isDigit = true
  value : part.foldl (fun n c => 10 * n + (c.toNat - '0'.toNat)) 0 ≤ 255

instance (part : List Char) : Decidable (Octet part) :=
  decidable_of_iff (part ≠ [] ∧ part.length ≤ 3 ∧ part.all Char.isDigit = true ∧
      part.foldl (fun n c => 10 * n + (c.toNat - '0'.toNat)) 0 ≤ 255)
    ⟨fun h => ⟨h.1, h.2.1, List.all_eq_true.mp h.2.2.1, h.2.2.2⟩,
      fun h => ⟨h.nonempty, h.length, List.all_eq_true.mpr h.digits, h.value⟩⟩

def isHex (c : Char) : Bool :=
  c.isDigit || ('a' ≤ c && c ≤ 'f') || ('A' ≤ c && c ≤ 'F')

/-- Sixteen bits, in one to four hexadecimal digits. -/
structure HexGroup (part : List Char) : Prop where
  nonempty : part ≠ []
  length : part.length ≤ 4
  digits : ∀ c ∈ part, isHex c = true

instance (part : List Char) : Decidable (HexGroup part) :=
  decidable_of_iff (part ≠ [] ∧ part.length ≤ 4 ∧ part.all isHex = true)
    ⟨fun h => ⟨h.1, h.2.1, List.all_eq_true.mp h.2.2⟩,
      fun h => ⟨h.nonempty, h.length, List.all_eq_true.mpr h.digits⟩⟩

/-- Four parts between dots. -/
def quad (a b c d : List Char) : List Char :=
  a ++ '.' :: (b ++ '.' :: (c ++ '.' :: d))

/-- Groups with colons between them. -/
def joined (groups : List (List Char)) : List Char :=
  [':'].intercalate groups

@[simp] theorem joined_nil : joined [] = [] := rfl

@[simp] theorem joined_singleton (group : List Char) : joined [group] = group :=
  List.intercalate_singleton

theorem joined_cons_cons (group second : List Char) (rest : List (List Char)) :
    joined (group :: second :: rest) = group ++ ':' :: joined (second :: rest) := by
  rw [joined, List.intercalate_cons_cons, List.append_assoc, List.singleton_append, joined]

def gap : List Char := [':', ':']

/-- The well-formed addresses, each with what is left of it: four octets; eight groups, some of which
a gap may stand for; and the same with four octets in the place of the last two groups. -/
inductive Shows : List Char → List Char → Prop
  | ipv4 {a b c d : List Char} : (∀ part ∈ [a, b, c, d], Octet part) →
      Shows (quad a b c d) (a ++ '.' :: (b ++ ".xxx.xxx".toList))
  | full {groups : List (List Char)} : groups.length = 8 → (∀ group ∈ groups, HexGroup group) →
      Shows (joined groups) (joined (groups.take 4) ++ hiddenGroups)
  | gap {front back : List (List Char)} : front.length + back.length < 8 →
      (∀ group ∈ front ++ back, HexGroup group) →
      Shows (joined front ++ gap ++ joined back)
        (joined ((front ++ List.replicate (8 - (front.length + back.length)) "0000".toList ++
          back).take 4) ++ hiddenGroups)
  | dotted {groups : List (List Char)} {a b c d : List Char} : groups.length = 6 →
      (∀ group ∈ groups, HexGroup group) → (∀ part ∈ [a, b, c, d], Octet part) →
      Shows (joined (groups ++ [quad a b c d]))
        (joined (groups ++ [a]) ++ '.' :: (b ++ ".xxx.xxx".toList))
  | gapDotted {front back : List (List Char)} {a b c d : List Char} :
      front.length + back.length < 6 → (∀ group ∈ front ++ back, HexGroup group) →
      (∀ part ∈ [a, b, c, d], Octet part) →
      Shows (joined front ++ gap ++ joined (back ++ [quad a b c d]))
        (joined front ++ gap ++ joined (back ++ [a]) ++ '.' :: (b ++ ".xxx.xxx".toList))

def Address (text : List Char) : Prop :=
  ∃ shown, Shows text shown

/-! ### Separators -/

section
variable {text left right : List Char}

theorem length_splitOn (separator : Char) (text : List Char) :
    (text.splitOn separator).length = text.count separator + 1 := by
  induction text with
  | nil => rfl
  | cons c text ih =>
    rw [List.splitOn_cons_eq_if_modifyHead, List.count_cons]
    by_cases hc : (c == separator) = true
    · rw [if_pos hc, if_pos hc, List.length_cons, ih]
    · rw [if_neg hc, if_neg hc, List.length_modifyHead, ih, Nat.add_zero]

/-- A gap at the start, or in the rest. -/
theorem gap_infix_cons {a : Char} :
    gap <:+: a :: text ↔ (a = ':' ∧ text.head? = some ':') ∨ gap <:+: text := by
  rw [List.infix_cons_iff]
  refine or_congr_left ?_
  cases text with
  | nil => simp [gap]
  | cons b rest => simp [gap, eq_comm]

theorem gap_infix_append (h : ':' ∉ left) : gap <:+: left ++ right ↔ gap <:+: right := by
  induction left with
  | nil => rfl
  | cons c left ih =>
    rw [List.mem_cons, not_or] at h
    rw [List.cons_append, gap_infix_cons, ih h.2]
    simp [Ne.symm h.1]

theorem gap_not_infix_colon : ¬ gap <:+: [':'] := by
  rw [gap_infix_cons]
  simp [gap]

theorem splitGap_eq_none_iff : splitGap text = none ↔ ¬ gap <:+: text := by
  induction text with
  | nil => simp [splitGap, gap]
  | cons a text ih =>
    rw [gap_infix_cons]
    cases text with
    | nil => simp [splitGap, gap]
    | cons b rest =>
      rw [splitGap]
      by_cases hgap : a = ':' ∧ b = ':'
      · simp [hgap]
      · rw [if_neg hgap, Option.map_eq_none_iff, ih, List.head?_cons, Option.some.injEq]
        simp [hgap]

/-- The text is split at the first gap. -/
theorem splitGap_append (h : ¬ gap <:+: left ++ [':']) :
    splitGap (left ++ gap ++ right) = some (left, right) := by
  induction left with
  | nil => rfl
  | cons a left ih =>
    rw [List.cons_append, gap_infix_cons, not_or] at h
    have hrest := ih h.2
    cases left with
    | nil =>
      have ha : a ≠ ':' := by simpa using h.1
      rw [show [a] ++ gap ++ right = a :: ':' :: ':' :: right from rfl, splitGap,
        if_neg fun hgap => ha hgap.1]
      rfl
    | cons b left =>
      have hab : ¬ (a = ':' ∧ b = ':') := by simpa using h.1
      rw [show a :: b :: left ++ gap ++ right = a :: b :: (left ++ gap ++ right) from rfl, splitGap,
        if_neg hab]
      rw [show b :: left ++ gap ++ right = b :: (left ++ gap ++ right) from rfl] at hrest
      rw [hrest]
      rfl

theorem of_splitGap_eq_some (h : splitGap text = some (left, right)) :
    text = left ++ gap ++ right ∧ ¬ gap <:+: left ++ [':'] := by
  induction text generalizing left with
  | nil => cases h
  | cons a text ih =>
    cases text with
    | nil => cases h
    | cons b rest =>
      rw [splitGap] at h
      by_cases hgap : a = ':' ∧ b = ':'
      · rw [if_pos hgap] at h
        cases h
        obtain ⟨rfl, rfl⟩ := hgap
        exact ⟨rfl, by rw [List.nil_append, gap_infix_cons]; simp [gap]⟩
      · rw [if_neg hgap] at h
        obtain ⟨⟨left, right⟩, hrest, heq⟩ := Option.map_eq_some_iff.mp h
        cases heq
        obtain ⟨htext, hleft⟩ := ih hrest
        refine ⟨by rw [htext]; rfl, ?_⟩
        rw [List.cons_append, gap_infix_cons, not_or]
        refine ⟨fun hstart => hgap ⟨hstart.1, ?_⟩, hleft⟩
        have hhead : (left ++ [':']).head? = some b := by
          have := congrArg List.head? htext
          cases left with
          | nil => simpa [gap, eq_comm] using this
          | cons c left => simpa [eq_comm] using this
        rw [hhead] at hstart
        exact Option.some.inj hstart.2

end

/-! ### Acceptance -/

/-- The number of groups on one side of a gap. -/
def groupCount (side : List Char) : Nat :=
  if side = [] then 0 else side.count ':' + 1

/-- What the mask asks of a text: three dots, or eight groups, where a gap counts for as many as are
missing. -/
inductive LooksLike (text : List Char) : Prop
  | dots : text.count '.' = 3 → LooksLike text
  | colons : ¬ gap <:+: text → text.count ':' = 7 → LooksLike text
  | gap {left right : List Char} : text = left ++ gap ++ right → ¬ gap <:+: left ++ [':'] →
      ¬ gap <:+: right → groupCount left + groupCount right ≤ 8 → LooksLike text

theorem length_sideGroups (side : List Char) : (sideGroups side).length = groupCount side := by
  cases side with
  | nil => rfl
  | cons c side =>
    rw [sideGroups, groupCount, if_neg (by simp), if_neg (by simp), length_splitOn]

/-- A text of the first kind is an address of the first kind for the mask. -/
theorem ip_dots {text : List Char} (h : text.count '.' = 3) : ∃ shown, ip text = .ok shown := by
  have hlength := length_splitOn '.' text
  rw [h] at hlength
  match hparts : text.splitOn '.', hlength with
  | [a, b, c, d], _ =>
    exact ⟨a ++ '.' :: b ++ ".xxx.xxx".toList, by simp only [ip, hparts]⟩

theorem ip_not_dots {text : List Char} (h : text.count '.' ≠ 3) :
    ip text = if ':' ∈ text then ipv6 text else .error "not an IPv4 or IPv6 address" := by
  refine ip_of_not_four fun a b c d hparts => h ?_
  have hlength := length_splitOn '.' text
  rw [hparts] at hlength
  simpa using hlength.symm

theorem ipv6_of_expand {text : List Char} {groups : List (List Char)}
    (h : expandGroups text = some groups) (hlength : groups.length = 8) :
    ipv6 text = .ok (joined (groups.take 4) ++ hiddenGroups) := by
  match groups, hlength with
  | [a, b, c, d, _, _, _, _], _ => simp [ipv6, h, joined_cons_cons]

theorem ipv6_ok_iff {text : List Char} : (∃ shown, ipv6 text = .ok shown) ↔
    ∃ groups, expandGroups text = some groups ∧ groups.length = 8 := by
  constructor
  · intro h
    obtain ⟨shown, h⟩ := h
    unfold ipv6 at h
    split at h
    · next hgroups => exact ⟨_, hgroups, rfl⟩
    · cases h
  · intro h
    obtain ⟨groups, hgroups, hlength⟩ := h
    exact ⟨_, ipv6_of_expand hgroups hlength⟩

/-- A text with a gap has eight groups unless there is another gap or there are more than eight. -/
theorem expandGroups_gap {text left right : List Char} (h : splitGap text = some (left, right)) :
    (∃ groups, expandGroups text = some groups ∧ groups.length = 8) ↔
      ¬ gap <:+: right ∧ groupCount left + groupCount right ≤ 8 := by
  rw [expandGroups, h]
  simp only [length_sideGroups]
  cases hright : splitGap right with
  | some pair =>
    have hgap : gap <:+: right := by
      by_contra hno
      rw [splitGap_eq_none_iff.mpr hno] at hright
      cases hright
    simp [hgap]
  | none =>
    rw [splitGap_eq_none_iff] at hright
    by_cases hmany : 8 < groupCount left + groupCount right
    · simp only [Option.isSome_none, Bool.false_eq_true, if_false, if_pos hmany]
      constructor
      · intro h
        obtain ⟨_, h, -⟩ := h
        cases h
      · intro h
        omega
    · simp only [Option.isSome_none, Bool.false_eq_true, if_false, if_neg hmany]
      refine ⟨fun _ => ⟨hright, by omega⟩, fun _ => ⟨_, rfl, ?_⟩⟩
      simp only [List.length_append, List.length_replicate, length_sideGroups]
      omega

theorem ip_ok_iff (text : List Char) : (∃ shown, ip text = .ok shown) ↔ LooksLike text := by
  by_cases hdots : text.count '.' = 3
  · exact ⟨fun _ => .dots hdots, fun _ => ip_dots hdots⟩
  rw [ip_not_dots hdots]
  cases hsplit : splitGap text with
  | none =>
    have hno := splitGap_eq_none_iff.mp hsplit
    have hgroups : (∃ groups, expandGroups text = some groups ∧ groups.length = 8) ↔
        text.count ':' = 7 := by
      rw [expandGroups, hsplit]
      simp [length_splitOn]
    constructor
    · intro h
      by_cases hcolon : ':' ∈ text
      · rw [if_pos hcolon, ipv6_ok_iff, hgroups] at h
        exact .colons hno h
      · rw [if_neg hcolon] at h
        obtain ⟨_, h⟩ := h
        cases h
    · intro h
      cases h with
      | dots h => exact absurd h hdots
      | colons _ hcount =>
        have hcolon : ':' ∈ text := List.count_pos_iff.mp (by omega)
        rwa [if_pos hcolon, ipv6_ok_iff, hgroups]
      | gap htext hleft _ _ =>
        rw [htext, splitGap_append hleft] at hsplit
        cases hsplit
  | some pair =>
    obtain ⟨left, right⟩ := pair
    obtain ⟨htext, hleft⟩ := of_splitGap_eq_some hsplit
    have hcolon : ':' ∈ text := by simp [htext, gap]
    rw [if_pos hcolon, ipv6_ok_iff, expandGroups_gap hsplit]
    constructor
    · intro h
      exact .gap htext hleft h.1 h.2
    · intro h
      cases h with
      | dots h => exact absurd h hdots
      | colons hno _ =>
        rw [splitGap_eq_none_iff.mpr hno] at hsplit
        cases hsplit
      | gap htext' hleft' hright hcount =>
        rw [htext', splitGap_append hleft'] at hsplit
        cases hsplit
        exact ⟨hright, hcount⟩

theorem ip_error {text : List Char} (h : ¬ LooksLike text) : ip text =
    .error (if ':' ∈ text then "invalid IPv6 address" else "not an IPv4 or IPv6 address") := by
  have hdots : text.count '.' ≠ 3 := fun hdots => h (.dots hdots)
  rw [← ip_ok_iff, ip_not_dots hdots] at h
  rw [ip_not_dots hdots]
  by_cases hcolon : ':' ∈ text
  · rw [if_pos hcolon] at h
    rw [if_pos hcolon, if_pos hcolon]
    unfold ipv6 at h ⊢
    split
    · next hgroups => exact absurd ⟨_, by rw [hgroups]⟩ h
    · rfl
  · rw [if_neg hcolon, if_neg hcolon]

/-! ### Addresses are accepted -/

theorem ip_quad {a b c d : List Char} (ha : '.' ∉ a) (hb : '.' ∉ b) (hc : '.' ∉ c) (hd : '.' ∉ d) :
    ip (quad a b c d) = .ok (a ++ '.' :: (b ++ ".xxx.xxx".toList)) := by
  have hparts : (quad a b c d).splitOn '.' = [a, b, c, d] := by
    rw [quad, List.splitOn_append_cons_self_of_not_mem ha,
      List.splitOn_append_cons_self_of_not_mem hb, List.splitOn_append_cons_self_of_not_mem hc,
      List.splitOn_eq_singleton hd]
  simp [ip, hparts]

section
variable {groups : List (List Char)}

/-- Where there is no dot and some colon, the groups are looked at. -/
theorem ip_groups {text : List Char} {all : List (List Char)} (hdots : '.' ∉ text)
    (hcolon : ':' ∈ text) (h : expandGroups text = some all) (hlength : all.length = 8) :
    ip text = .ok (joined (all.take 4) ++ hiddenGroups) := by
  rw [ip_not_dots (by rw [List.count_eq_zero_of_not_mem hdots]; decide), if_pos hcolon,
    ipv6_of_expand h hlength]

theorem mem_joined {c : Char} (h : c ∈ joined groups) : c = ':' ∨ ∃ group ∈ groups, c ∈ group := by
  induction groups with
  | nil => cases h
  | cons group rest ih =>
    cases rest with
    | nil => exact .inr ⟨group, List.mem_cons_self, by simpa using h⟩
    | cons second rest =>
      rw [joined_cons_cons, List.mem_append, List.mem_cons] at h
      rcases h with h | rfl | h
      · exact .inr ⟨group, List.mem_cons_self, h⟩
      · exact .inl rfl
      · rcases ih h with h | ⟨other, hmem, h⟩
        · exact .inl h
        · exact .inr ⟨other, List.mem_cons_of_mem _ hmem, h⟩

theorem joined_cons (c : Char) (group : List Char) (rest : List (List Char)) :
    joined ((c :: group) :: rest) = c :: joined (group :: rest) := by
  cases rest with
  | nil => simp
  | cons second rest => rw [joined_cons_cons, joined_cons_cons, List.cons_append]

theorem joined_append (groups : List (List Char)) (a b : List Char) :
    joined (groups ++ [a ++ b]) = joined (groups ++ [a]) ++ b := by
  induction groups with
  | nil => simp
  | cons group rest ih =>
    cases rest with
    | nil => simp [joined_cons_cons]
    | cons second rest =>
      simp only [List.cons_append, joined_cons_cons, List.append_assoc] at ih ⊢
      rw [ih]

theorem joined_quad (groups : List (List Char)) (a b c d : List Char) :
    joined (groups ++ [quad a b c d]) = quad (joined (groups ++ [a])) b c d := by
  rw [quad, joined_append, quad]

theorem dot_not_mem_joined (h : ∀ group ∈ groups, '.' ∉ group) : '.' ∉ joined groups := by
  intro hdot
  rcases mem_joined hdot with hdot | ⟨group, hmem, hdot⟩
  · cases hdot
  · exact h group hmem hdot

theorem Octet.not_mem {part : List Char} (h : Octet part) {c : Char} (hc : c.isDigit = false) :
    c ∉ part := fun hmem => by simpa [hc] using h.digits c hmem

theorem HexGroup.not_mem {part : List Char} (h : HexGroup part) {c : Char} (hc : isHex c = false) :
    c ∉ part := fun hmem => by simpa [hc] using h.digits c hmem

variable (hex : ∀ group ∈ groups, HexGroup group)
include hex

theorem gap_not_infix_joined : ¬ gap <:+: joined groups ++ [':'] := by
  induction groups with
  | nil => exact gap_not_infix_colon
  | cons group rest ih =>
    rw [List.forall_mem_cons] at hex
    have hgroup := hex.1.not_mem (c := ':') rfl
    cases rest with
    | nil => simpa [gap_infix_append hgroup] using gap_not_infix_colon
    | cons second rest =>
      rw [joined_cons_cons, List.append_assoc, gap_infix_append hgroup, List.cons_append,
        gap_infix_cons, not_or]
      refine ⟨fun hstart => ?_, ih hex.2⟩
      -- The next group starts with a digit.
      obtain ⟨c, digits, rfl⟩ := List.exists_cons_of_ne_nil (hex.2 _ List.mem_cons_self).nonempty
      have hdigit := (hex.2 _ List.mem_cons_self).digits c List.mem_cons_self
      rw [joined_cons, List.cons_append, List.head?_cons, Option.some.injEq] at hstart
      rw [hstart.2] at hdigit
      cases hdigit

theorem splitGap_joined : splitGap (joined groups) = none :=
  splitGap_eq_none_iff.mpr fun h => gap_not_infix_joined hex (h.trans (List.infix_append [] _ [':']))

theorem sideGroups_joined : sideGroups (joined groups) = groups := by
  cases groups with
  | nil => rfl
  | cons group rest =>
    have hne : joined (group :: rest) ≠ [] := by
      obtain ⟨c, digits, rfl⟩ :=
        List.exists_cons_of_ne_nil (hex group List.mem_cons_self).nonempty
      rw [joined_cons]
      exact List.cons_ne_nil _ _
    rw [sideGroups, List.isEmpty_eq_false_iff.mpr hne]
    exact List.splitOn_intercalate ':' (fun group hmem => (hex group hmem).not_mem rfl)
      (List.cons_ne_nil _ _)

theorem HexGroup.dot_not_mem_joined : '.' ∉ joined groups :=
  Mask.dot_not_mem_joined fun group hmem => (hex group hmem).not_mem rfl

theorem dot_not_mem_joined_octet {a : List Char} (h : Octet a) : '.' ∉ joined (groups ++ [a]) := by
  refine Mask.dot_not_mem_joined fun group hmem => ?_
  rcases List.mem_append.mp hmem with hmem | hmem
  · exact (hex group hmem).not_mem rfl
  · rw [List.mem_singleton.mp hmem]
    exact h.not_mem rfl

end

/-- **Of a well-formed address the mask shows what belongs to it.** -/
theorem ip_of_shows {text shown : List Char} (h : Shows text shown) : ip text = .ok shown := by
  have hoctets : ∀ {a b c d : List Char}, (∀ part ∈ [a, b, c, d], Octet part) →
      Octet a ∧ '.' ∉ b ∧ '.' ∉ c ∧ '.' ∉ d := by
    intro a b c d h
    have hdot : ∀ part ∈ [a, b, c, d], '.' ∉ part := fun part hmem => (h part hmem).not_mem rfl
    exact ⟨h a (by simp), hdot b (by simp), hdot c (by simp), hdot d (by simp)⟩
  cases h with
  | ipv4 octets =>
    obtain ⟨ha, hb, hc, hd⟩ := hoctets octets
    exact ip_quad (ha.not_mem rfl) hb hc hd
  | @full groups hlength hex =>
    have hexpand : expandGroups (joined groups) = some groups := by
      rw [expandGroups, splitGap_joined hex]
      refine congrArg some (List.splitOn_intercalate ':' ?_ ?_)
      · exact fun group hmem => (hex group hmem).not_mem rfl
      · exact List.ne_nil_of_length_pos (by omega)
    have hcolon : ':' ∈ joined groups := by
      match groups, hlength with
      | a :: b :: rest, _ => simp [joined_cons_cons]
    exact ip_groups (HexGroup.dot_not_mem_joined hex) hcolon hexpand hlength
  | @gap front back hcount hex =>
    have hfront : ∀ group ∈ front, HexGroup group := fun group hmem =>
      hex group (List.mem_append_left _ hmem)
    have hback : ∀ group ∈ back, HexGroup group := fun group hmem =>
      hex group (List.mem_append_right _ hmem)
    have hexpand : expandGroups (joined front ++ Mask.gap ++ joined back) =
        some (front ++ List.replicate (8 - (front.length + back.length)) "0000".toList ++ back) := by
      rw [expandGroups, splitGap_append (gap_not_infix_joined hfront)]
      simp only [splitGap_joined hback, sideGroups_joined hfront, sideGroups_joined hback,
        Option.isSome_none, Bool.false_eq_true, if_false]
      rw [if_neg (by omega)]
    refine ip_groups ?_ (by simp [Mask.gap]) hexpand ?_
    · simp [Mask.gap, HexGroup.dot_not_mem_joined hfront, HexGroup.dot_not_mem_joined hback]
    · simp only [List.length_append, List.length_replicate]
      omega
  | dotted _ hex octets =>
    obtain ⟨ha, hb, hc, hd⟩ := hoctets octets
    rw [joined_quad]
    exact ip_quad (dot_not_mem_joined_octet hex ha) hb hc hd
  | @gapDotted front back a b c d _ hex octets =>
    obtain ⟨ha, hb, hc, hd⟩ := hoctets octets
    have hfront := HexGroup.dot_not_mem_joined fun group hmem =>
      hex group (List.mem_append_left back hmem)
    have hback := dot_not_mem_joined_octet
      (fun group hmem => hex group (List.mem_append_right front hmem)) ha
    have hquad : joined front ++ Mask.gap ++ joined (back ++ [quad a b c d]) =
        quad (joined front ++ Mask.gap ++ joined (back ++ [a])) b c d := by
      rw [joined_quad]
      simp only [quad, List.append_assoc]
    rw [hquad]
    exact ip_quad (by simp [Mask.gap, hfront, hback]) hb hc hd

/-! ### What an address is made of -/

theorem mem_quad {x : Char} {a b c d : List Char} :
    x ∈ quad a b c d ↔ x = '.' ∨ ∃ part ∈ [a, b, c, d], x ∈ part := by
  simp only [quad, List.mem_append, List.mem_cons, List.not_mem_nil, or_false, exists_eq_or_imp,
    exists_eq_left]
  tauto

/-- What an address is written with. -/
def addressChar (c : Char) : Prop :=
  isHex c = true ∨ c = '.' ∨ c = ':'

theorem addressChar_of_mem_quad {a b c d : List Char} (h : ∀ part ∈ [a, b, c, d], Octet part) :
    ∀ x ∈ quad a b c d, addressChar x := by
  intro x hx
  rcases mem_quad.mp hx with rfl | ⟨part, hmem, hx⟩
  · exact .inr (.inl rfl)
  · have hdigit := (h part hmem).digits x hx
    exact .inl (by simp [isHex, hdigit])

theorem addressChar_of_mem_joined {groups : List (List Char)}
    (h : ∀ group ∈ groups, ∀ c ∈ group, addressChar c) : ∀ c ∈ joined groups, addressChar c := by
  intro c hc
  rcases mem_joined hc with rfl | ⟨group, hmem, hc⟩
  · exact .inr (.inr rfl)
  · exact h group hmem c hc

theorem addressChar_of_mem_groups {groups : List (List Char)}
    (h : ∀ group ∈ groups, HexGroup group) : ∀ group ∈ groups, ∀ c ∈ group, addressChar c :=
  fun group hmem c hc => .inl ((h group hmem).digits c hc)

theorem Address.chars {text : List Char} (h : Address text) : ∀ c ∈ text, addressChar c := by
  have hends : ∀ {left right : List Char}, (∀ c ∈ left, addressChar c) →
      (∀ c ∈ right, addressChar c) → ∀ c ∈ left ++ gap ++ right, addressChar c := by
    intro left right hleft hright c hc
    simp only [List.mem_append, gap, List.mem_cons, List.not_mem_nil, or_false, or_self] at hc
    rcases hc with (hc | rfl) | hc
    · exact hleft c hc
    · exact .inr (.inr rfl)
    · exact hright c hc
  have hdotted : ∀ {groups : List (List Char)} {a b c d : List Char},
      (∀ group ∈ groups, HexGroup group) → (∀ part ∈ [a, b, c, d], Octet part) →
      ∀ x ∈ joined (groups ++ [quad a b c d]), addressChar x := by
    intro groups a b c d hex octets
    refine addressChar_of_mem_joined fun group hmem => ?_
    rcases List.mem_append.mp hmem with hmem | hmem
    · exact addressChar_of_mem_groups hex group hmem
    · rw [List.mem_singleton.mp hmem]
      exact addressChar_of_mem_quad octets
  obtain ⟨_, h⟩ := h
  cases h with
  | ipv4 octets => exact addressChar_of_mem_quad octets
  | full _ hex => exact addressChar_of_mem_joined (addressChar_of_mem_groups hex)
  | gap _ hex =>
    rw [List.forall_mem_append] at hex
    exact hends (addressChar_of_mem_joined (addressChar_of_mem_groups hex.1))
      (addressChar_of_mem_joined (addressChar_of_mem_groups hex.2))
  | dotted _ hex octets => exact hdotted hex octets
  | gapDotted _ hex octets =>
    rw [List.forall_mem_append] at hex
    exact hends (addressChar_of_mem_joined (addressChar_of_mem_groups hex.1)) (hdotted hex.2 octets)

end RecordPrivacy.Mask

namespace RecordPrivacy.Masker
open Mask

/-- What the mask of addresses makes of a text. -/
structure MasksAddress (text : List Char) : Prop where
  accepted : (∃ shown, (builtin .ip).mask (String.ofList text) = .ok shown) ↔ LooksLike text
  refused : ¬ LooksLike text → (builtin .ip).mask (String.ofList text) =
    .error (.invalidFormat .ip
      (if ':' ∈ text then "invalid IPv6 address" else "not an IPv4 or IPv6 address"))
  dotted : ∀ a b c d, (∀ part ∈ [a, b, c, d], '.' ∉ part) → text = quad a b c d →
    (builtin .ip).mask (String.ofList text) =
      .ok (String.ofList (a ++ '.' :: (b ++ ".xxx.xxx".toList)))
  address : ∀ shown, Shows text shown →
    (builtin .ip).mask (String.ofList text) = .ok (String.ofList shown)

theorem ip_mask (text : List Char) : (builtin .ip).mask (String.ofList text) =
    match ip text with
    | .ok shown => .ok (String.ofList shown)
    | .error reason => .error (.invalidFormat .ip reason) := by
  simp only [builtin, MaskFormat.mask, String.toList_ofList]
  rfl

/-- **The mask of addresses goes by separators.** It takes what looks like an address and refuses
everything else; of an address it shows what belongs to it, and of any other four parts between dots
the first two. -/
theorem ip_by_separators (text : List Char) : MasksAddress text where
  accepted := by
    rw [← ip_ok_iff, ip_mask]
    cases ip text with
    | ok shown => exact ⟨fun _ => ⟨shown, rfl⟩, fun _ => ⟨String.ofList shown, rfl⟩⟩
    | error reason => simp
  refused h := by rw [ip_mask, ip_error h]
  dotted a b c d hdots htext := by
    have hparts := ip_quad (hdots a (by simp)) (hdots b (by simp)) (hdots c (by simp))
      (hdots d (by simp))
    rw [htext, ip_mask, hparts]
  address shown h := by rw [ip_mask, ip_of_shows h]

/-- Four words between dots are no address, and the first two are shown; of eight groups the last of
which are octets the first six are shown, with two octets. -/
theorem ip_reveals :
    ((builtin .ip).mask "not.an.ip.address" = .ok "not.an.xxx.xxx" ∧
        ¬ Address "not.an.ip.address".toList) ∧
      (builtin .ip).mask "1:2:3:4:5:6:7.8.9.10" = .ok "1:2:3:4:5:6:7.8.xxx.xxx" ∧
        Address "1:2:3:4:5:6:7.8.9.10".toList := by
  have hword : ¬ Address "not.an.ip.address".toList := by
    intro h
    have hn : addressChar 'n' := h.chars 'n' (by decide)
    revert hn
    simp [addressChar, isHex]
  have haddress : Address "1:2:3:4:5:6:7.8.9.10".toList :=
    ⟨_, @Shows.dotted [['1'], ['2'], ['3'], ['4'], ['5'], ['6']] ['7'] ['8'] ['9'] ['1', '0'] rfl
      (by decide) (by decide)⟩
  exact ⟨⟨by decide, hword⟩, by decide, haddress⟩

end RecordPrivacy.Masker
