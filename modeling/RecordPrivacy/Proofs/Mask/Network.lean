import RecordPrivacy.Proofs.Mask.Digits
import RecordPrivacy.Proofs.Mask.Address
import Mathlib.Data.Nat.Digits.Defs

/-! What is left of an address in hexadecimal groups.

Such an address is a number of 128 bits, written as eight groups of sixteen bits each, or as fewer with
a gap for groups that are zero (`Spells`). It has many spellings: digits may be of either case, zeros may
stand in front of a group or be left out, and the gap may stand anywhere or not at all. What the mask
leaves of them differs as texts do, but read as numbers the four groups are the upper half of the
address, in every spelling (`ip_shows_network`). -/
namespace RecordPrivacy
namespace Mask

/-! ### Numbers -/

/-- The value of a hexadecimal digit, in either case; capitals come before small letters. -/
def hexDigit (c : Char) : Nat :=
  if c.isDigit then c.toNat - '0'.toNat
  else if c ≤ 'F' then c.toNat - 'A'.toNat + 10
  else c.toNat - 'a'.toNat + 10

/-- The number that the digits of a group stand for. -/
def hexNumber (group : List Char) : Nat :=
  Nat.ofDigits 16 (group.reverse.map hexDigit)

/-- The number whose digits are groups of sixteen bits, the most significant first. -/
def ofGroups (values : List Nat) : Nat :=
  Nat.ofDigits (2 ^ 16) values.reverse

/-- The spellings of an address: eight groups, or fewer and a gap for one group of zeros or more. -/
inductive Spells : List Char → BitVec 128 → Prop
  | full {groups : List (List Char)} : groups.length = 8 → (∀ group ∈ groups, HexGroup group) →
      Spells (joined groups) (.ofNat 128 (ofGroups (groups.map hexNumber)))
  | gap {front back : List (List Char)} {zeros : Nat} : 0 < zeros →
      front.length + zeros + back.length = 8 → (∀ group ∈ front ++ back, HexGroup group) →
      Spells (joined front ++ gap ++ joined back) (.ofNat 128 (ofGroups
        (front.map hexNumber ++ List.replicate zeros 0 ++ back.map hexNumber)))

/-- Four groups that, read as numbers, are the upper 64 bits of an address. -/
structure UpperHalf (address : BitVec 128) (shown : List (List Char)) : Prop where
  length : shown.length = 4
  hex : ∀ group ∈ shown, HexGroup group
  number : ofGroups (shown.map hexNumber) = (address.extractLsb' 64 64).toNat

/-- The numbers that the first four groups of a masked address stand for. -/
def shownNumbers (masked : List Char) : List Nat :=
  ((masked.splitOn ':').take 4).map hexNumber

theorem hexDigit_lt {c : Char} (h : isHex c = true) : hexDigit c < 16 := by
  have hle : ∀ {a b : Char}, a ≤ b ↔ a.toNat ≤ b.toNat := Iff.rfl
  simp only [isHex, Bool.or_eq_true, Bool.and_eq_true, decide_eq_true_eq, or_assoc, hle,
    Char.isDigit_iff_toNat, Char.reduceToNat] at h
  simp only [hexDigit, hle, Char.isDigit_iff_toNat, Char.reduceToNat]
  split_ifs <;> omega

theorem hexNumber_lt {group : List Char} (h : HexGroup group) : hexNumber group < 2 ^ 16 := by
  have hdigits : ∀ d ∈ group.reverse.map hexDigit, d < 16 := by
    intro d hd
    obtain ⟨c, hc, rfl⟩ := List.mem_map.mp hd
    exact hexDigit_lt (h.digits c (List.mem_reverse.mp hc))
  calc hexNumber group
      < 16 ^ (group.reverse.map hexDigit).length := Nat.ofDigits_lt_base_pow_length (by decide) hdigits
    _ ≤ 16 ^ 4 := Nat.pow_le_pow_right (by decide) (by simpa using h.length)
    _ = 2 ^ 16 := by decide

theorem hexNumbers_lt {groups : List (List Char)} (hex : ∀ group ∈ groups, HexGroup group) :
    ∀ value ∈ groups.map hexNumber, value < 2 ^ 16 := by
  intro value hvalue
  obtain ⟨group, hmem, rfl⟩ := List.mem_map.mp hvalue
  exact hexNumber_lt (hex group hmem)

theorem ofGroups_lt {values : List Nat} (h : ∀ value ∈ values, value < 2 ^ 16) :
    ofGroups values < (2 ^ 16) ^ values.length := by
  rw [← List.length_reverse]
  exact Nat.ofDigits_lt_base_pow_length (by decide) fun value hmem =>
    h value (List.mem_reverse.mp hmem)

theorem ofGroups_append (upper lower : List Nat) :
    ofGroups (upper ++ lower) = ofGroups lower + (2 ^ 16) ^ lower.length * ofGroups upper := by
  rw [ofGroups, List.reverse_append, Nat.ofDigits_append, List.length_reverse, ofGroups, ofGroups]

/-- Groups of one number are the same numbers, if there are as many. -/
theorem ofGroups_inj {values values' : List Nat} (hlength : values.length = values'.length)
    (h : ∀ value ∈ values, value < 2 ^ 16) (h' : ∀ value ∈ values', value < 2 ^ 16)
    (heq : ofGroups values = ofGroups values') : values = values' := by
  refine List.reverse_injective (Nat.ofDigits_inj_of_len_eq (by decide : 1 < 2 ^ 16) ?_ ?_ ?_ heq)
  · rw [List.length_reverse, List.length_reverse, hlength]
  · exact fun value hmem => h value (List.mem_reverse.mp hmem)
  · exact fun value hmem => h' value (List.mem_reverse.mp hmem)

/-! ### Halves -/

/-- The first four of eight groups are the upper half of the number. -/
theorem ofGroups_take {values : List Nat} (hlength : values.length = 8)
    (h : ∀ value ∈ values, value < 2 ^ 16) :
    ofGroups (values.take 4) = ((BitVec.ofNat 128 (ofGroups values)).extractLsb' 64 64).toNat := by
  have hupper : ofGroups (values.take 4) < 2 ^ 64 := by
    have hlt : ofGroups (values.take 4) < (2 ^ 16) ^ (values.take 4).length :=
      ofGroups_lt fun value hmem => h value (List.mem_of_mem_take hmem)
    rwa [List.length_take, hlength] at hlt
  have hlower : ofGroups (values.drop 4) < 2 ^ 64 := by
    have hlt : ofGroups (values.drop 4) < (2 ^ 16) ^ (values.drop 4).length :=
      ofGroups_lt fun value hmem => h value (List.mem_of_mem_drop hmem)
    rwa [List.length_drop, hlength] at hlt
  have hwhole : ofGroups values = ofGroups (values.drop 4) + 2 ^ 64 * ofGroups (values.take 4) := by
    have happend := ofGroups_append (values.take 4) (values.drop 4)
    rwa [List.take_append_drop, List.length_drop, hlength] at happend
  rw [BitVec.extractLsb'_toNat, BitVec.toNat_ofNat, Nat.shiftRight_eq_div_pow, hwhole]
  omega

/-- A spelling has eight groups, with zeros for the gap; the mask shows the first four. -/
theorem Spells.groups {text : List Char} {address : BitVec 128} (h : Spells text address) :
    ∃ groups : List (List Char), groups.length = 8 ∧ (∀ group ∈ groups, HexGroup group) ∧
      address = .ofNat 128 (ofGroups (groups.map hexNumber)) ∧
      Shows text (joined (groups.take 4) ++ hiddenGroups) := by
  cases h with
  | @full groups hlength hex => exact ⟨groups, hlength, hex, rfl, .full hlength hex⟩
  | @gap front back zeros hzeros hlength hex =>
    obtain rfl : zeros = 8 - (front.length + back.length) := by omega
    refine ⟨_, ?length, ?hex, ?number, .gap (by omega) hex⟩
    case length =>
      simp only [List.length_append, List.length_replicate]
      omega
    case hex =>
      intro group hmem
      rw [List.mem_append, List.mem_append] at hmem
      rcases hmem with (hmem | hmem) | hmem
      · exact hex group (List.mem_append_left _ hmem)
      · rw [List.eq_of_mem_replicate hmem]
        decide
      · exact hex group (List.mem_append_right _ hmem)
    case number =>
      have hzero : hexNumber "0000".toList = 0 := by decide
      rw [List.map_append, List.map_append, List.map_replicate, hzero]

theorem joined_append_cons {front : List (List Char)} (h : front ≠ []) (group : List Char)
    (back : List (List Char)) :
    joined (front ++ group :: back) = joined front ++ ':' :: joined (group :: back) := by
  induction front with
  | nil => exact absurd rfl h
  | cons first rest ih =>
    cases rest with
    | nil => rw [List.singleton_append, joined_cons_cons, joined_singleton]
    | cons second rest =>
      have hrest := ih (List.cons_ne_nil _ _)
      rw [List.cons_append] at hrest
      rw [List.cons_append, List.cons_append, joined_cons_cons, hrest, joined_cons_cons,
        List.append_assoc, List.cons_append]

theorem hiddenGroups_eq :
    hiddenGroups = ':' :: joined ("xxxx".toList :: List.replicate 3 "xxxx".toList) := by
  decide

/-- A masked address is read back group by group. -/
theorem UpperHalf.shownNumbers {address : BitVec 128} {shown : List (List Char)}
    (h : UpperHalf address shown) :
    shownNumbers (joined shown ++ hiddenGroups) = shown.map hexNumber := by
  have hne : shown ≠ [] := List.ne_nil_of_length_pos (by rw [h.length]; decide)
  have hcolon : ∀ group ∈ shown ++ "xxxx".toList :: List.replicate 3 "xxxx".toList, ':' ∉ group := by
    intro group hmem
    rcases List.mem_append.mp hmem with hmem | hmem
    · exact (h.hex group hmem).not_mem rfl
    · rw [List.eq_of_mem_replicate (n := 4) hmem]
      decide
  have hsplit := List.splitOn_intercalate ':' hcolon (by simp)
  rw [← joined, joined_append_cons hne, ← hiddenGroups_eq] at hsplit
  rw [Mask.shownNumbers, hsplit, ← h.length, List.take_left]

theorem UpperHalf.unique {address : BitVec 128} {shown shown' : List (List Char)}
    (h : UpperHalf address shown) (h' : UpperHalf address shown') :
    shown.map hexNumber = shown'.map hexNumber := by
  refine ofGroups_inj ?_ (hexNumbers_lt h.hex) (hexNumbers_lt h'.hex) (h.number.trans h'.number.symm)
  rw [List.length_map, List.length_map, h.length, h'.length]

/-- Whatever the spelling, the mask leaves the upper half of the address. -/
theorem Spells.upperHalf {text : List Char} {address : BitVec 128} (h : Spells text address) :
    ∃ shown, UpperHalf address shown ∧ ip text = .ok (joined shown ++ hiddenGroups) := by
  obtain ⟨groups, hlength, hex, rfl, hshows⟩ := h.groups
  refine ⟨groups.take 4, ⟨?length, ?hex, ?number⟩, ip_of_shows hshows⟩
  case length => rw [List.length_take, hlength]; decide
  case hex => exact fun group hmem => hex group (List.mem_of_mem_take hmem)
  case number =>
    rw [List.map_take]
    exact ofGroups_take (by rwa [List.length_map]) (hexNumbers_lt hex)

end Mask

open Mask

/-- **Of an address in hexadecimal groups its upper half is left.** However the address is spelled, the
mask accepts it and leaves four groups that read as numbers are the upper 64 bits, with four hidden
groups behind them; hence two spellings of one address show the same four numbers. -/
theorem Masker.ip_shows_network (text : String) (address : BitVec 128)
    (h : Spells text.toList address) :
    (∃ shown, UpperHalf address shown ∧ (builtin .ip).mask text =
      .ok (String.ofList (joined shown ++ ":xxxx:xxxx:xxxx:xxxx".toList))) ∧
    ∀ other masked masked' : String, Spells other.toList address →
      (builtin .ip).mask text = .ok masked → (builtin .ip).mask other = .ok masked' →
      shownNumbers masked.toList = shownNumbers masked'.toList := by
  obtain ⟨shown, hupper, hip⟩ := h.upperHalf
  refine ⟨⟨shown, hupper, MaskFormat.mask_of_apply hip⟩, ?_⟩
  intro other masked masked' hother hmasked hmasked'
  obtain ⟨shown', hupper', hip'⟩ := hother.upperHalf
  have hshown : joined shown ++ hiddenGroups = masked.toList :=
    Except.ok.inj (hip.symm.trans (MaskFormat.mask_ok_iff.mp hmasked))
  have hshown' : joined shown' ++ hiddenGroups = masked'.toList :=
    Except.ok.inj (hip'.symm.trans (MaskFormat.mask_ok_iff.mp hmasked'))
  rw [← hshown, ← hshown', hupper.shownNumbers, hupper'.shownNumbers]
  exact hupper.unique hupper'

/-- An address in capitals with a gap, and the same in small letters with all its zeros. -/
theorem Masker.spellings_showAlike :
    Spells "2001:DB8::7".toList 0x20010DB8000000000000000000000007#128 ∧
      Spells "2001:0db8:0:00:000:0000:0:7".toList 0x20010DB8000000000000000000000007#128 ∧
      shownNumbers "2001:DB8:0000:0000:xxxx:xxxx:xxxx:xxxx".toList =
        shownNumbers "2001:0db8:0:00:xxxx:xxxx:xxxx:xxxx".toList := by
  have hgap : Spells "2001:DB8::7".toList 0x20010DB8000000000000000000000007#128 :=
    @Spells.gap ["2001".toList, "DB8".toList] [['7']] 5 (by decide) (by decide) (by decide)
  have hfull : Spells "2001:0db8:0:00:000:0000:0:7".toList 0x20010DB8000000000000000000000007#128 :=
    @Spells.full ["2001".toList, "0db8".toList, ['0'], ['0', '0'], "000".toList, "0000".toList, ['0'],
      ['7']] (by decide) (by decide)
  obtain ⟨-, hsame⟩ := ip_shows_network "2001:DB8::7" _ hgap
  exact ⟨hgap, hfull, hsame _ _ _ hfull (by decide) (by decide)⟩

end RecordPrivacy
