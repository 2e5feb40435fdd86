import RecordPrivacy.Plan.Cache
import Mathlib.Data.Set.Card

/-! What a cache keeps.

Whether a type is kept or not, the cache gives what compilation yields (`Serves.plansFor_plans`). It
keeps a type from the first time that its plans are asked for and compile (`find?_plansFor`), under
a stamp that it gives to no other plans, also not after a reset (`Since`). -/
namespace RecordPrivacy.PlanCache

/-! ### Asking for plans -/

/-- What asking for the plans of a type may come to. -/
inductive Asked {n : Nat} (family : Family n) (cache : PlanCache) (root : Fin n) :
    Except CompileError SharedPlans × PlanCache → Prop
  | kept {shared} : cache.find? root.val = some shared →
      Asked family cache root (.ok shared, cache)
  | refused {e} : cache.find? root.val = none → PlanSet.compile family root = .error e →
      Asked family cache root (.error e, cache)
  | compiled {plans} : cache.find? root.val = none → PlanSet.compile family root = .ok plans →
      Asked family cache root (.ok ⟨cache.compiled, plans⟩,
        ⟨cache.entries ++ [(root.val, ⟨cache.compiled, plans⟩)], cache.compiled + 1⟩)

variable {n : Nat} {family : Family n} {cache : PlanCache} {root type : Fin n}
  {shared : SharedPlans}

theorem asked_plansFor (family : Family n) (cache : PlanCache) (root : Fin n) :
    Asked family cache root (cache.plansFor family root) := by
  rw [plansFor]
  cases hfind : cache.find? root.val with
  | some shared => exact .kept hfind
  | none =>
    cases hcompile : PlanSet.compile family root with
    | error e => exact .refused hfind hcompile
    | ok plans => exact .compiled hfind hcompile

/-- What was asked for is kept from now on if there are plans of it, and nothing else changes. -/
theorem find?_plansFor (number : Nat) : (cache.plansFor family root).2.find? number =
    if number = root.val then (cache.plansFor family root).1.toOption else cache.find? number := by
  have hasked := asked_plansFor family cache root
  generalize cache.plansFor family root = result at hasked ⊢
  cases hasked with
  | kept h =>
    split
    · next heq =>
      rw [heq, h]
      rfl
    · rfl
  | refused h _ =>
    split
    · next heq =>
      rw [heq, h]
      rfl
    · rfl
  | @compiled plans h _ =>
    rw [find?, List.lookup_append]
    split
    · next heq =>
      rw [heq, show cache.entries.lookup root.val = none from h, Option.none_or,
        List.lookup_cons_self]
      rfl
    · next hne =>
      rw [List.lookup_cons, beq_false_of_ne hne]
      exact Option.or_none

theorem plansFor_of_find? (h : cache.find? root.val = some shared) :
    cache.plansFor family root = (.ok shared, cache) := by
  rw [plansFor, h]

/-- A refusal leaves the cache as it was. -/
theorem plansFor_error {e : CompileError} (h : (cache.plansFor family root).1 = .error e) :
    (cache.plansFor family root).2 = cache := by
  have hasked := asked_plansFor family cache root
  generalize cache.plansFor family root = result at hasked h ⊢
  cases hasked with
  | kept _ => cases h
  | refused _ _ => rfl
  | compiled _ _ => cases h

theorem find?_plansFor_self (h : (cache.plansFor family root).1 = .ok shared) :
    (cache.plansFor family root).2.find? root.val = some shared := by
  rw [find?_plansFor, if_pos rfl, h]
  rfl

/-- What is kept stays, whatever is asked for. -/
theorem find?_plansFor_of_some {number : Nat} (h : cache.find? number = some shared) :
    (cache.plansFor family root).2.find? number = some shared := by
  rw [find?_plansFor]
  split
  · next heq =>
    rw [plansFor_of_find? (heq ▸ h)]
    rfl
  · exact h

theorem mem_of_find? {number : Nat} (h : cache.find? number = some shared) :
    (number, shared) ∈ cache.entries := by
  obtain ⟨before, after, heq, -⟩ := List.lookup_eq_some_iff.mp h
  rw [heq]
  exact List.mem_append_right _ List.mem_cons_self

theorem find?_eq_none {number : Nat} (h : cache.find? number = none) :
    number ∉ cache.entries.map Prod.fst := by
  intro hmem
  obtain ⟨entry, hentry, rfl⟩ := List.mem_map.mp hmem
  have := List.lookup_eq_none_iff.mp h entry hentry
  simp at this

theorem find?_isSome_iff {number : Nat} :
    (cache.find? number).isSome ↔ number ∈ cache.entries.map Prod.fst := by
  constructor
  · intro h
    obtain ⟨shared, h⟩ := Option.isSome_iff_exists.mp h
    exact List.mem_map_of_mem (mem_of_find? h)
  · intro h
    by_contra hnone
    exact find?_eq_none (Option.not_isSome_iff_eq_none.mp hnone) h

/-! ### A cache that serves a family -/

/-- A cache keeps compiled plans of the family's types, for each type once, and under stamps that
were each given once and before the next one. -/
structure Serves (cache : PlanCache) (family : Family n) : Prop where
  once : (cache.entries.map Prod.fst).Nodup
  compiled : ∀ entry ∈ cache.entries, ∃ type : Fin n,
    type.val = entry.1 ∧ PlanSet.compile family type = .ok entry.2.plans
  given : ∀ entry ∈ cache.entries, entry.2.stamp < cache.compiled
  stamped : ∀ entry ∈ cache.entries, ∀ other ∈ cache.entries,
    entry.2.stamp = other.2.stamp → entry = other

theorem serves_reset (cache : PlanCache) (family : Family n) : cache.reset.Serves family where
  once := List.nodup_nil
  compiled := fun _ h => nomatch h
  given := fun _ h => nomatch h
  stamped := fun _ h => nomatch h

namespace Serves

theorem plansFor (h : cache.Serves family) (root : Fin n) :
    (cache.plansFor family root).2.Serves family := by
  have hasked := asked_plansFor family cache root
  generalize cache.plansFor family root = result at hasked ⊢
  cases hasked with
  | kept _ => exact h
  | refused _ _ => exact h
  | @compiled plans hnew hcompile =>
    have hcases : ∀ entry ∈ cache.entries ++ [(root.val, ⟨cache.compiled, plans⟩)],
        entry ∈ cache.entries ∨ entry = (root.val, ⟨cache.compiled, plans⟩) := by
      intro entry hentry
      simpa using hentry
    refine ⟨?_, ?_, ?_, ?_⟩
    · rw [List.map_append, List.nodup_append]
      refine ⟨h.once, List.nodup_singleton _, ?_⟩
      intro number hnumber other hother heq
      rw [List.map_singleton, List.mem_singleton] at hother
      rw [heq, hother] at hnumber
      exact find?_eq_none hnew hnumber
    · intro entry hentry
      rcases hcases entry hentry with hold | rfl
      · exact h.compiled entry hold
      · exact ⟨root, rfl, hcompile⟩
    · intro entry hentry
      rcases hcases entry hentry with hold | rfl
      · exact Nat.lt_succ_of_lt (h.given entry hold)
      · exact Nat.lt_succ_self _
    · intro entry hentry other hother heq
      rcases hcases entry hentry with hold | rfl <;> rcases hcases other hother with hold' | rfl
      · exact h.stamped entry hold other hold' heq
      · exact absurd heq (h.given entry hold).ne
      · exact absurd heq.symm (h.given other hold').ne
      · rfl

/-- What is kept for a type is what compilation yields. -/
theorem compile_of_find? (h : cache.Serves family) (hfind : cache.find? type.val = some shared) :
    PlanSet.compile family type = .ok shared.plans := by
  obtain ⟨kept, hkept, hcompile⟩ := h.compiled _ (mem_of_find? hfind)
  rwa [Fin.ext hkept] at hcompile

/-- **The plans of a type** are what compilation yields, whatever is kept. -/
theorem plansFor_plans (h : cache.Serves family) (root : Fin n) :
    (cache.plansFor family root).1.map SharedPlans.plans = PlanSet.compile family root := by
  have hasked := asked_plansFor family cache root
  generalize cache.plansFor family root = result at hasked ⊢
  cases hasked with
  | kept hfind => exact (h.compile_of_find? hfind).symm
  | refused _ hcompile => exact hcompile.symm
  | compiled _ hcompile => exact hcompile.symm

/-- Plans with one stamp are kept for one type. -/
theorem type_of_stamp (h : cache.Serves family) {other : SharedPlans}
    (hfind : cache.find? root.val = some shared) (hother : cache.find? type.val = some other)
    (heq : shared.stamp = other.stamp) : root = type :=
  Fin.ext (congrArg Prod.fst (h.stamped _ (mem_of_find? hfind) _ (mem_of_find? hother) heq))

/-- The size is the number of types for which plans are kept. -/
theorem size_eq (h : cache.Serves family) :
    cache.size = {type : Fin n | (cache.find? type.val).isSome}.ncard := by
  have himage : Fin.val '' {type : Fin n | (cache.find? type.val).isSome} =
      ((cache.entries.map Prod.fst).toFinset : Set Nat) := by
    ext number
    simp only [Set.mem_image, Set.mem_ofPred_eq, find?_isSome_iff, List.coe_toFinset]
    constructor
    · intro hkept
      obtain ⟨type, hmem, rfl⟩ := hkept
      exact hmem
    · intro hmem
      obtain ⟨entry, hentry, rfl⟩ := List.mem_map.mp hmem
      obtain ⟨type, htype, -⟩ := h.compiled entry hentry
      exact ⟨type, htype ▸ hmem, htype⟩
  rw [← Set.ncard_image_of_injective _ Fin.val_injective, himage, Set.ncard_coe_finset,
    List.toFinset_card_of_nodup h.once, List.length_map, size]

end Serves

/-! ### After a reset -/

/-- Everything that is kept or is still to be compiled has its stamp from a bound on. -/
structure Since (cache : PlanCache) (bound : Nat) : Prop where
  next : bound ≤ cache.compiled
  kept : ∀ entry ∈ cache.entries, bound ≤ entry.2.stamp

namespace Since
variable {bound : Nat}

theorem reset (h : bound ≤ cache.compiled) : cache.reset.Since bound :=
  ⟨h, fun _ hentry => nomatch hentry⟩

theorem plansFor (h : cache.Since bound) (family : Family n) (root : Fin n) :
    (cache.plansFor family root).2.Since bound := by
  have hasked := asked_plansFor family cache root
  generalize cache.plansFor family root = result at hasked ⊢
  cases hasked with
  | kept _ => exact h
  | refused _ _ => exact h
  | compiled _ _ =>
    refine ⟨Nat.le_succ_of_le h.next, ?_⟩
    intro entry hentry
    rcases List.mem_append.mp hentry with hold | hnew
    · exact h.kept entry hold
    · rw [List.mem_singleton.mp hnew]
      exact h.next

theorem le_stamp (h : cache.Since bound) {number : Nat} (hfind : cache.find? number = some shared) :
    bound ≤ shared.stamp :=
  h.kept _ (mem_of_find? hfind)

end Since

end RecordPrivacy.PlanCache
