import RecordPrivacy.Description
import RecordPrivacy.Proofs.Processor.Soundness
import RecordPrivacy.Sample.Supply
import RecordPrivacy.Sample.Tokens

/-! Processors that share a cache.

In a workshop processors of many types are created, with one cache for all, and put to work; now and
then the cache is reset. `Catalogue.cache_transparent` says what can be noticed of the cache: which
plans are shared, and how many are kept. What a creation returns, and what a processor works with,
does not depend on it. -/
namespace RecordPrivacy

/-! ### Workshops -/

/-- The record types of a program: one family of schemas, and what else processors know of each. -/
structure Catalogue (n : Nat) where
  family : Family n
  overrides : Fin n → List Action
  override : Fin n → Override
  empty : Fin n → Record
  toJson : Fin n → Record → Except String Json

def Catalogue.type {n : Nat} (c : Catalogue n) (t : Fin n) : RecordType where
  size := n
  family := c.family
  root := t
  overrides := c.overrides t
  runOverride := c.override t
  empty := c.empty t
  toJson := c.toJson t

/-- What is done in a workshop: a processor is created and given its supply of randomness, the cache
is reset, or the processor at a place is asked for something. -/
inductive Deed (n : Nat) where
  | create (type : Fin n) (supply : Entropy)
  | reset
  | operate (place : Nat) (op : Operation)

/-- The cache, and the processors at work in the order of their creation. -/
structure Workshop where
  cache : PlanCache
  works : List Work

namespace Workshop

def start : Workshop := ⟨.empty, []⟩

section
variable {n : Nat} (c : Catalogue n)

/-- What the creation of a processor returns. -/
def created (w : Workshop) (t : Fin n) : Except CompileError Processor :=
  (Processor.create (c.type t) w.cache).1

def act (w : Workshop) : Deed n → Workshop
  | .create t supply =>
    match Processor.create (c.type t) w.cache with
    | (.error _, cache) => ⟨cache, w.works⟩
    | (.ok p, cache) =>
      ⟨cache, w.works ++ [⟨p, supply, [.reported (Processor.creation (c.type t) (.ok p))]⟩]⟩
  | .reset => ⟨w.cache.reset, w.works⟩
  | .operate place op => ⟨w.cache, w.works.modify place fun work => (op.run work).2⟩

/-- The workshop after deeds, in order. -/
def after (w : Workshop) (deeds : List (Deed n)) : Workshop :=
  deeds.foldl (act c) w

/-- The type was made a processor of since the last reset. -/
def Current (history : List (Deed n)) (t : Fin n) : Prop :=
  ∃ before supply later p, history = before ++ .create t supply :: later ∧ .reset ∉ later ∧
    (start.after c before).created c t = .ok p

end

/-! ### One deed -/

section
variable {n : Nat} {c : Catalogue n} {w : Workshop} {t : Fin n} {p : Processor}

/-- A creation returns a processor with the plans that the cache has for its type. -/
theorem created_shared (w : Workshop) (t : Fin n) :
    (w.created c t).map Processor.shared = (w.cache.plansFor c.family t).1 := by
  change ((w.cache.plansFor c.family t).1.map _).map _ = _
  cases (w.cache.plansFor c.family t).1 <;> rfl

theorem created_type (h : w.created c t = .ok p) : p.type = c.type t := by
  change (w.cache.plansFor c.family t).1.map _ = .ok p at h
  cases hplans : (w.cache.plansFor c.family t).1 with
  | error e =>
    rw [hplans] at h
    cases h
  | ok shared =>
    rw [hplans] at h
    cases h
    rfl

theorem created_ok (h : w.created c t = .ok p) :
    (w.cache.plansFor c.family t).1 = .ok p.shared := by
  rw [← created_shared, h]
  rfl

theorem created_error {e : CompileError} (h : w.created c t = .error e) :
    (w.cache.plansFor c.family t).1 = .error e := by
  rw [← created_shared, h]
  rfl

theorem create_eq : Processor.create (c.type t) w.cache =
    (w.created c t, (w.cache.plansFor c.family t).2) := rfl

theorem act_create_ok (h : w.created c t = .ok p) (supply : Entropy) :
    w.act c (.create t supply) = ⟨(w.cache.plansFor c.family t).2,
      w.works ++ [⟨p, supply, [.reported (Processor.creation (c.type t) (.ok p))]⟩]⟩ := by
  rw [act, create_eq, h]

/-- A refused creation changes nothing. -/
theorem act_create_error {e : CompileError} (h : w.created c t = .error e) (supply : Entropy) :
    w.act c (.create t supply) = w := by
  rw [act, create_eq, h]
  simp only [PlanCache.plansFor_error (created_error h)]

@[simp] theorem act_create_cache (w : Workshop) (t : Fin n) (supply : Entropy) :
    (w.act c (.create t supply)).cache = (w.cache.plansFor c.family t).2 := by
  cases h : w.created c t with
  | error e => rw [act_create_error h, PlanCache.plansFor_error (created_error h)]
  | ok p => rw [act_create_ok h]

@[simp] theorem act_reset_cache (w : Workshop) : (w.act c .reset).cache = w.cache.reset := rfl

/-- Whatever is done, a processor stays at its place with its type and its plans. -/
theorem act_works {place : Nat} {work : Work} (h : w.works[place]? = some work) (deed : Deed n) :
    ∃ work', (w.act c deed).works[place]? = some work' ∧
      work'.processor.type = work.processor.type ∧
      work'.processor.shared = work.processor.shared := by
  cases deed with
  | create t supply =>
    refine ⟨work, ?_, rfl, rfl⟩
    cases hcreated : w.created c t with
    | error e => rwa [act_create_error hcreated]
    | ok p =>
      obtain ⟨hlt, -⟩ := List.getElem?_eq_some_iff.mp h
      rw [act_create_ok hcreated, List.getElem?_append_left hlt, h]
  | reset => exact ⟨work, h, rfl, rfl⟩
  | operate place' op =>
    rw [act, List.getElem?_modify, h]
    by_cases hplace : place' = place
    · refine ⟨(op.run work).2, by simp [hplace], ?_⟩
      rw [op.run_processor]
      exact ⟨rfl, rfl⟩
    · exact ⟨work, by simp [hplace], rfl, rfl⟩

/-! ### Deeds in order -/

theorem after_append (w : Workshop) (before later : List (Deed n)) :
    w.after c (before ++ later) = (w.after c before).after c later :=
  List.foldl_append

theorem after_works {place : Nat} {work : Work} (h : w.works[place]? = some work)
    (deeds : List (Deed n)) :
    ∃ work', (w.after c deeds).works[place]? = some work' ∧
      work'.processor.type = work.processor.type ∧
      work'.processor.shared = work.processor.shared := by
  induction deeds generalizing w work with
  | nil => exact ⟨work, h, rfl, rfl⟩
  | cons deed rest ih =>
    obtain ⟨work₁, h₁, htype, hshared⟩ := act_works (c := c) h deed
    obtain ⟨work', h', htype', hshared'⟩ := ih h₁
    exact ⟨work', h', htype'.trans htype, hshared'.trans hshared⟩

/-- What holds of the cache and is kept by every request for plans and by every reset among the
deeds holds of it afterwards. -/
theorem after_cache {P : PlanCache → Prop} {deeds : List (Deed n)}
    (plansFor : ∀ (cache : PlanCache) t, P cache → P (cache.plansFor c.family t).2)
    (reset : .reset ∈ deeds → ∀ cache, P cache → P cache.reset) (h : P w.cache) :
    P (w.after c deeds).cache := by
  induction deeds generalizing w with
  | nil => exact h
  | cons deed rest ih =>
    refine ih (fun hreset => reset (List.mem_cons_of_mem _ hreset)) ?_
    cases deed with
    | create t supply =>
      rw [act_create_cache]
      exact plansFor w.cache t h
    | reset => exact reset List.mem_cons_self w.cache h
    | operate place op => exact h

theorem after_serves (history : List (Deed n)) :
    (start.after c history).cache.Serves c.family :=
  after_cache (P := fun cache => cache.Serves c.family) (fun _ t h => h.plansFor t)
    (fun _ cache _ => PlanCache.serves_reset cache c.family)
    (PlanCache.serves_reset .empty c.family)

/-- Whatever was done before, a processor that was just created is new. -/
theorem created_new {before : List (Deed n)} (h : (start.after c before).created c t = .ok p) :
    p.New :=
  Processor.new_of_create (fun _ hkept => (after_serves before).compile_of_find? hkept) h

/-- What is kept stays until the next reset. -/
theorem after_find? {number : Nat} {shared : SharedPlans} {deeds : List (Deed n)}
    (h : w.cache.find? number = some shared) (unreset : .reset ∉ deeds) :
    (w.after c deeds).cache.find? number = some shared :=
  after_cache (P := fun cache => cache.find? number = some shared)
    (fun _ _ h => PlanCache.find?_plansFor_of_some h) (fun hreset => absurd hreset unreset) h

theorem after_since {bound : Nat} (h : w.cache.Since bound) (deeds : List (Deed n)) :
    (w.after c deeds).cache.Since bound :=
  after_cache (P := fun cache => cache.Since bound) (fun _ t h => h.plansFor c.family t)
    (fun _ _ h => .reset h.next) h

/-- The plans of a processor are kept until the next reset. -/
theorem find?_after_created (h : w.created c t = .ok p) (supply : Entropy)
    {later : List (Deed n)} (unreset : .reset ∉ later) :
    (w.after c (.create t supply :: later)).cache.find? t.val = some p.shared := by
  refine after_find? (w := w.act c (.create t supply)) ?_ unreset
  rw [act_create_cache]
  exact PlanCache.find?_plansFor_self (created_ok h)

/-- A processor that comes from a cache after a reset has a stamp of its own. -/
theorem stamp_lt_of_reset {before mid : List (Deed n)} {supply : Entropy} {t' : Fin n}
    {q : Processor} (hp : (start.after c before).created c t = .ok p)
    (hq : (start.after c (before ++ .create t supply :: mid)).created c t' = .ok q)
    (hreset : .reset ∈ mid) : p.shared.stamp < q.shared.stamp := by
  obtain ⟨first, rest, rfl, hfirst⟩ := List.eq_append_cons_of_mem hreset
  -- Until the first reset the plans of the one are kept; what is kept later was compiled later.
  let w := start.after c (before ++ .create t supply :: first)
  have hkept : w.cache.find? t.val = some p.shared := by
    rw [show w = _ from after_append start before _]
    exact find?_after_created hp supply hfirst
  have hlt : p.shared.stamp < w.cache.compiled :=
    (after_serves _).given _ (PlanCache.mem_of_find? hkept)
  have hsince : ((w.act c .reset).after c rest).cache.Since w.cache.compiled :=
    after_since (.reset le_rfl) rest
  have hlater : start.after c (before ++ .create t supply :: (first ++ .reset :: rest)) =
      (w.act c .reset).after c rest := by
    rw [show before ++ .create t supply :: (first ++ .reset :: rest) =
      (before ++ .create t supply :: first) ++ .reset :: rest by simp, after_append]
    rfl
  rw [hlater] at hq
  have hfind := PlanCache.find?_plansFor_self (created_ok hq)
  exact lt_of_lt_of_le hlt ((hsince.plansFor c.family t').le_stamp hfind)

/-- Two processors share their plans exactly if they are of one type and no reset lies between. -/
theorem stamp_eq_iff {before mid : List (Deed n)} {supply : Entropy} {t' : Fin n} {q : Processor}
    (hp : (start.after c before).created c t = .ok p)
    (hq : (start.after c (before ++ .create t supply :: mid)).created c t' = .ok q) :
    p.shared.stamp = q.shared.stamp ↔ t = t' ∧ .reset ∉ mid := by
  have hkept : .reset ∉ mid →
      (start.after c (before ++ .create t supply :: mid)).cache.find? t.val = some p.shared := by
    intro unreset
    rw [after_append]
    exact find?_after_created hp supply unreset
  have hplans := created_ok hq
  constructor
  · intro heq
    have unreset : .reset ∉ mid := fun hreset => (stamp_lt_of_reset hp hq hreset).ne heq
    have hserves := (after_serves (c := c) (before ++ .create t supply :: mid)).plansFor t'
    exact ⟨hserves.type_of_stamp (PlanCache.find?_plansFor_of_some (hkept unreset))
      (PlanCache.find?_plansFor_self hplans) heq, unreset⟩
  · intro h
    obtain ⟨rfl, unreset⟩ := h
    rw [PlanCache.plansFor_of_find? (hkept unreset)] at hplans
    exact congrArg SharedPlans.stamp (Except.ok.inj hplans)

/-! ### What is kept -/

theorem Current.snoc {history : List (Deed n)} {deed : Deed n} (h : Current c history t)
    (unreset : deed ≠ .reset) : Current c (history ++ [deed]) t := by
  obtain ⟨before, supply, later, p, rfl, hlater, hp⟩ := h
  refine ⟨before, supply, later ++ [deed], p, by simp, ?_, hp⟩
  rw [List.mem_append, List.mem_singleton, not_or]
  exact ⟨hlater, unreset.symm⟩

/-- Plans are kept for the types that were made processors of since the last reset. -/
theorem find?_isSome_iff {history : List (Deed n)} :
    ((start.after c history).cache.find? t.val).isSome ↔ Current c history t := by
  constructor
  · intro h
    induction history using List.reverseRecOn with
    | nil => cases h
    | append_singleton history deed ih =>
      rw [after_append] at h
      cases deed with
      | create t' supply =>
        change (((start.after c history).act c (.create t' supply)).cache.find? t.val).isSome at h
        rw [act_create_cache, PlanCache.find?_plansFor] at h
        split at h
        · next heq =>
          obtain rfl : t = t' := Fin.ext heq
          cases hcreated : (start.after c history).created c t with
          | error e =>
            rw [created_error hcreated] at h
            cases h
          | ok p => exact ⟨history, supply, [], p, rfl, List.not_mem_nil, hcreated⟩
        · exact (ih h).snoc (by simp)
      | reset => cases h
      | operate place op => exact (ih h).snoc (by simp)
  · intro h
    obtain ⟨before, supply, later, p, rfl, hlater, hp⟩ := h
    rw [after_append, find?_after_created hp supply hlater]
    rfl

end
end Workshop

/-! ### The cache is transparent -/

/-- What can be noticed of the cache in a workshop, and what cannot, whatever was done before. -/
structure Catalogue.Transparent {n : Nat} (c : Catalogue n) : Prop where
  /-- A creation returns what compilation returns. -/
  compiles : ∀ (before : List (Deed n)) (t : Fin n),
    ((Workshop.start.after c before).created c t).map Processor.plans =
      PlanSet.compile c.family t
  /-- The processor is new, and of the type that was asked for. -/
  begins : ∀ (before : List (Deed n)) (t : Fin n) (p : Processor),
    (Workshop.start.after c before).created c t = .ok p → p.type = c.type t ∧ p.New
  /-- Two processors share their plans exactly if they are of one type and no reset lies between. -/
  shares : ∀ (before : List (Deed n)) (t : Fin n) (supply : Entropy) (mid : List (Deed n))
    (t' : Fin n) (p q : Processor), (Workshop.start.after c before).created c t = .ok p →
      (Workshop.start.after c (before ++ .create t supply :: mid)).created c t' = .ok q →
        (p.shared.stamp = q.shared.stamp ↔ t = t' ∧ .reset ∉ mid)
  /-- Of one type they have equal plans in any case. -/
  agrees : ∀ (before later : List (Deed n)) (t : Fin n) (p q : Processor),
    (Workshop.start.after c before).created c t = .ok p →
      (Workshop.start.after c later).created c t = .ok q → p.plans = q.plans
  /-- A refused creation changes nothing. -/
  refuses : ∀ (before : List (Deed n)) (t : Fin n) (supply : Entropy) (e : CompileError),
    (Workshop.start.after c before).created c t = .error e →
      Workshop.start.after c (before ++ [.create t supply]) = Workshop.start.after c before
  /-- The size is the number of types that were made processors of since the last reset. -/
  counts : ∀ history : List (Deed n), (Workshop.start.after c history).cache.size =
    {t | Workshop.Current c history t}.ncard
  /-- A processor has the plans that it was created with for ever. -/
  keeps : ∀ (before : List (Deed n)) (t : Fin n) (supply : Entropy) (later : List (Deed n))
    (p : Processor), (Workshop.start.after c before).created c t = .ok p →
      ∃ work, (Workshop.start.after c (before ++ .create t supply :: later)).works[
          (Workshop.start.after c before).works.length]? = some work ∧
        work.processor.type = p.type ∧ work.processor.shared = p.shared

/-- **A cache of plans is transparent.** -/
theorem Catalogue.cache_transparent {n : Nat} (c : Catalogue n) : c.Transparent := by
  have hcompiles : ∀ (before : List (Deed n)) t,
      ((Workshop.start.after c before).created c t).map Processor.plans =
        PlanSet.compile c.family t := by
    intro before t
    rw [← (Workshop.after_serves (c := c) before).plansFor_plans t, ← Workshop.created_shared]
    cases (Workshop.start.after c before).created c t <;> rfl
  refine ⟨hcompiles, fun _ _ _ h => ⟨Workshop.created_type h, Workshop.created_new h⟩,
    fun _ _ _ _ _ _ _ => Workshop.stamp_eq_iff, ?_, ?_, ?_, ?_⟩
  · intro before later t p q hp hq
    have hplans := (hcompiles before t).trans (hcompiles later t).symm
    rw [hp, hq] at hplans
    exact Except.ok.inj hplans
  · intro before t supply e h
    rw [Workshop.after_append]
    exact Workshop.act_create_error h supply
  · intro history
    rw [(Workshop.after_serves history).size_eq]
    simp only [Workshop.find?_isSome_iff]
  · intro before t supply later p hp
    rw [Workshop.after_append]
    have hplace : ((Workshop.start.after c before).act c (.create t supply)).works[
        (Workshop.start.after c before).works.length]? =
          some ⟨p, supply, [.reported (Processor.creation (c.type t) (.ok p))]⟩ := by
      rw [Workshop.act_create_ok hp]
      exact List.getElem?_concat_length
    exact Workshop.after_works hplace later

/-- Tokens and their holders, with nothing of their own. -/
def Sample.tokens : Catalogue 3 where
  family := tokenFamily
  overrides _ := []
  override _ := .declining
  empty _ := []
  toJson _ _ := .error "no layout"

def Sample.making (type : Fin 3) : Deed 3 :=
  .create type supply

/-- A broken token is not kept, nor the token that was compiled for its holder only. The plans of a
token are the same until a reset, and equal but others afterwards. -/
theorem Catalogue.tokens_transparent : ∃ p q r : Processor,
    (Workshop.start.after Sample.tokens []).created Sample.tokens 0 = .ok p ∧
    (Workshop.start.after Sample.tokens
      [Sample.making 0, Sample.making 1, Sample.making 2]).created Sample.tokens 0 = .ok q ∧
    (Workshop.start.after Sample.tokens
      [Sample.making 0, .reset, Sample.making 2]).created Sample.tokens 0 = .ok r ∧
    p.shared.stamp = q.shared.stamp ∧ p.shared.stamp ≠ r.shared.stamp ∧ p.plans = r.plans ∧
    (Workshop.start.after Sample.tokens
      [Sample.making 0, Sample.making 1, Sample.making 2]).cache.size = 2 ∧
    (Workshop.start.after Sample.tokens
      [Sample.making 0, .reset, Sample.making 2]).cache.size = 1 := by
  have htransparent := Sample.tokens.cache_transparent
  have htoken : PlanSet.compile Sample.tokens.family 0 = .ok Sample.tokenPlanSet := by cbv
  have hbroken : PlanSet.compile Sample.tokens.family 1 =
      .error (.invalidParameter "value" .hash "md5") := by cbv
  have hholder : PlanSet.compile Sample.tokens.family 2 = .ok Sample.holderPlanSet := by cbv
  have hmade : ∀ before, ∃ p,
      (Workshop.start.after Sample.tokens before).created Sample.tokens 0 = .ok p := by
    intro before
    have hcompiles := htransparent.compiles before 0
    rw [htoken] at hcompiles
    cases hcreated : (Workshop.start.after Sample.tokens before).created Sample.tokens 0 with
    | error e =>
      rw [hcreated] at hcompiles
      cases hcompiles
    | ok p => exact ⟨p, rfl⟩
  obtain ⟨p, hp⟩ := hmade []
  obtain ⟨q, hq⟩ := hmade [Sample.making 0, Sample.making 1, Sample.making 2]
  obtain ⟨r, hr⟩ := hmade [Sample.making 0, .reset, Sample.making 2]
  have htogether := htransparent.shares _ _ Sample.supply
    [Sample.making 1, Sample.making 2] _ p q hp hq
  have hapart := htransparent.shares _ _ Sample.supply [.reset, Sample.making 2] _ p r hp hr
  refine ⟨p, q, r, hp, hq, hr, htogether.mpr ⟨rfl, by simp [Sample.making]⟩, ?_,
    htransparent.agrees _ _ _ p r hp hr, ?_, ?_⟩
  · intro heq
    exact (hapart.mp heq).2 List.mem_cons_self
  · simp [Workshop.after, Sample.making, Workshop.start, PlanCache.empty, PlanCache.plansFor,
      PlanCache.find?, List.lookup_cons, htoken, hbroken, hholder, PlanCache.size]
  · simp [Workshop.after, Sample.making, PlanCache.reset, PlanCache.plansFor, PlanCache.find?,
      hholder, PlanCache.size]

end RecordPrivacy
