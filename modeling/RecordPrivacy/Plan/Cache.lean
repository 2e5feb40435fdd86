import RecordPrivacy.Plan

/-!
Compiled plans, kept from one use of a record type to the next. Plans that are handed out carry a
stamp, given when they were compiled and never given again, so that equal stamps mean the same plans
and not only equal ones. Refused types are not kept.
-/
namespace RecordPrivacy

structure SharedPlans where
  stamp : Nat
  plans : PlanSet
  deriving DecidableEq, Repr

structure PlanCache where
  /-- The kept plans, each with the number of its type. -/
  entries : List (Nat × SharedPlans)
  /-- How many plans have been compiled so far, kept or not. -/
  compiled : Nat
  deriving DecidableEq, Repr

namespace PlanCache

def empty : PlanCache := ⟨[], 0⟩

def find? (cache : PlanCache) (type : Nat) : Option SharedPlans :=
  cache.entries.lookup type

def size (cache : PlanCache) : Nat :=
  cache.entries.length

/-- Drops what is kept; plans already handed out are not touched. -/
def reset (cache : PlanCache) : PlanCache :=
  ⟨[], cache.compiled⟩

/-- The plans of a type: those that are kept, or else freshly compiled ones, which are kept from now
on. -/
def plansFor {n : Nat} (cache : PlanCache) (family : Family n) (root : Fin n) :
    Except CompileError SharedPlans × PlanCache :=
  match cache.find? root.val with
  | some shared => (.ok shared, cache)
  | none =>
    match PlanSet.compile family root with
    | .error e => (.error e, cache)
    | .ok plans =>
      let shared : SharedPlans := ⟨cache.compiled, plans⟩
      (.ok shared, ⟨cache.entries ++ [(root.val, shared)], cache.compiled + 1⟩)

end PlanCache

end RecordPrivacy
