import Mathlib.Data.List.Forall2

/-! Lists of named things, lists that go together one by one, and lists without repetition. -/
namespace RecordPrivacy
variable {α β γ : Type}

/-! ### Named things -/

section
variable {all : List α} {name : α → String}

/-- If all things are found by their names, what is found by a name has it. -/
theorem find?_named (found : ∀ a, all.find? (name · == name a) = some a) {given : String} {a : α} :
    all.find? (name · == given) = some a ↔ name a = given := by
  constructor
  · intro h
    simpa using List.find?_some h
  · intro h
    rw [← h, found]

theorem name_injective (found : ∀ a, all.find? (name · == name a) = some a) :
    Function.Injective name := by
  intro a b h
  have hfound := found a
  rw [h, found] at hfound
  exact (Option.some.inj hfound).symm

end

/-! ### Lists that go together -/

section
variable {R : α → β → Prop} {as : List α} {bs : List β}

theorem forall₂_mem_left (h : List.Forall₂ R as bs) {a : α} (ha : a ∈ as) : ∃ b ∈ bs, R a b := by
  induction h with
  | nil => cases ha
  | cons hfirst _ ih =>
    rcases List.mem_cons.mp ha with rfl | ha
    · exact ⟨_, List.mem_cons_self, hfirst⟩
    · obtain ⟨b, hb, hab⟩ := ih ha
      exact ⟨b, List.mem_cons_of_mem _ hb, hab⟩

theorem forall₂_mem_right (h : List.Forall₂ R as bs) {b : β} (hb : b ∈ bs) : ∃ a ∈ as, R a b :=
  forall₂_mem_left h.flip hb

/-- What a search over the second of two lists hits first belongs, in the first list, to the first
of all that have something there which is hit. -/
theorem first_of_findSome? {before : α → α → Prop} {f : β → Option γ} {hit : γ}
    (unique : ∀ a b b', R a b → R a b' → b = b') (h : List.Forall₂ R as bs)
    (sorted : as.Pairwise before) (hhit : bs.findSome? f = some hit) :
    ∃ a ∈ as, ∃ b ∈ bs, R a b ∧ f b = some hit ∧
      ∀ a' ∈ as, ∀ b', R a' b' → f b' ≠ none → a' = a ∨ before a a' := by
  induction h with
  | nil => cases hhit
  | @cons a b as bs hab hrest ih =>
    obtain ⟨hleast, hsorted⟩ := List.pairwise_cons.mp sorted
    cases hb : f b with
    | some c =>
      rw [List.findSome?_cons, hb] at hhit
      cases hhit
      refine ⟨a, List.mem_cons_self, b, List.mem_cons_self, hab, hb, fun a' ha' b' _ _ => ?_⟩
      exact (List.mem_cons.mp ha').imp_right (hleast a')
    | none =>
      rw [List.findSome?_cons, hb] at hhit
      obtain ⟨a₀, ha₀, b₀, hb₀, hab₀, hfound, hfirst⟩ := ih hsorted hhit
      refine ⟨a₀, List.mem_cons_of_mem _ ha₀, b₀, List.mem_cons_of_mem _ hb₀, hab₀, hfound, ?_⟩
      intro a' ha' b' hab' hmiss
      rcases List.mem_cons.mp ha' with rfl | ha'
      · exact absurd (unique _ _ _ hab hab' ▸ hb) hmiss
      · exact hfirst a' ha' b' hab' hmiss

end

/-! ### Adding what is new -/

section
variable [DecidableEq α] {found as : List α} {a : α}

/-- Adds a member, unless it is there already. -/
def addNew (found : List α) (a : α) : List α :=
  if a ∈ found then found else found ++ [a]

theorem nodup_foldl_addNew (h : found.Nodup) : (as.foldl addNew found).Nodup := by
  induction as generalizing found with
  | nil => exact h
  | cons first as ih =>
    rw [List.foldl_cons]
    refine ih ?_
    rw [addNew]
    split
    · exact h
    · next hnew =>
      refine List.nodup_append.mpr ⟨h, List.pairwise_singleton _ _, ?_⟩
      rintro other hother _ hfirst rfl
      exact hnew (List.mem_singleton.mp hfirst ▸ hother)

/-- What is added are the first occurrences of what was not there. -/
theorem foldl_addNew_eq :
    as.foldl addNew found = found ++ (as.filter (· ∉ found)).eraseDups := by
  induction as generalizing found with
  | nil => simp
  | cons first as ih =>
    rw [List.foldl_cons, ih, addNew]
    by_cases hmem : first ∈ found
    · rw [if_pos hmem, List.filter_cons_of_neg (by simpa using hmem)]
    · rw [if_neg hmem, List.filter_cons_of_pos (by simpa using hmem), List.eraseDups_cons,
        List.filter_filter, List.append_assoc, List.singleton_append]
      congr 3
      refine List.filter_congr fun other _ => ?_
      by_cases hfirst : other = first <;> simp [hfirst]

theorem foldl_addNew_nil : as.foldl addNew [] = as.eraseDups := by
  simp [foldl_addNew_eq]

theorem nodup_eraseDups (as : List α) : as.eraseDups.Nodup := by
  rw [← foldl_addNew_nil]
  exact nodup_foldl_addNew List.nodup_nil

end

/-- Behind the members found stands what is wanted and was not among them, each once. -/
def AddsOnce (wanted : α → Prop) (found result : List α) : Prop :=
  ∃ added, result = found ++ added ∧ added.Nodup ∧ ∀ a, a ∈ added ↔ wanted a ∧ a ∉ found

namespace AddsOnce
variable {wanted wanted' : α → Prop} {found between result : List α}

theorem congr (h : AddsOnce wanted found result) (same : ∀ a, wanted' a ↔ wanted a) :
    AddsOnce wanted' found result := by
  obtain ⟨added, rfl, hnodup, hmem⟩ := h
  refine ⟨added, rfl, hnodup, fun a => ?_⟩
  rw [hmem, same]

theorem none (h : ∀ a, ¬ wanted a) : AddsOnce wanted found found :=
  ⟨[], (List.append_nil _).symm, List.nodup_nil, by simp [h]⟩

/-- What is wanted second is not added again where the first has added it. -/
theorem trans (h : AddsOnce wanted found between) (h' : AddsOnce wanted' between result) :
    AddsOnce (fun a => wanted a ∨ wanted' a) found result := by
  obtain ⟨first, rfl, hfirst, hmem⟩ := h
  obtain ⟨second, rfl, hsecond, hmem'⟩ := h'
  refine ⟨first ++ second, List.append_assoc .., ?nodup, fun a => ?mem⟩
  case nodup =>
    refine List.nodup_append.mpr ⟨hfirst, hsecond, ?_⟩
    rintro a ha _ hb rfl
    exact ((hmem' a).mp hb).2 (List.mem_append_right _ ha)
  case mem =>
    rw [List.mem_append, hmem', List.mem_append, hmem]
    tauto

/-- Where nothing has been found before, the result is all that is wanted. -/
theorem of_nil (h : AddsOnce wanted [] result) : result.Nodup ∧ ∀ a, a ∈ result ↔ wanted a := by
  obtain ⟨added, rfl, hnodup, hmem⟩ := h
  exact ⟨hnodup, fun a => by simp [hmem]⟩

end AddsOnce

theorem addsOnce_foldl_addNew [DecidableEq α] {found as : List α} :
    AddsOnce (· ∈ as) found (as.foldl addNew found) :=
  ⟨_, foldl_addNew_eq, nodup_eraseDups _, fun a => by simp⟩

end RecordPrivacy
