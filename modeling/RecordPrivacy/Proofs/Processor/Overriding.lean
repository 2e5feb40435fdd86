import RecordPrivacy.Proofs.Plan.Fields
import RecordPrivacy.Proofs.Processor.Events
import RecordPrivacy.Proofs.Traversal.Effect
import RecordPrivacy.Sample.Letters

/-! Overrides at a boundary.

An action is carried out in one of two ways, by the type's override or by its plans, and never by a
bit of each (`Carries`). A crossing goes through the boundary's actions from left to right, each on
what the one before it has left, and ends with the first that fails (`Folds`). `cross_folds` says
that this is all that a crossing does, and that how an action is carried out is a matter of that
action alone. -/
namespace RecordPrivacy

/-! ### One action -/

inductive Route where
  | override
  | plans
  deriving DecidableEq, Repr

/-- Only an override is reported. -/
def Route.events (action : Action) : Route → List Event
  | .override => [.overridden action]
  | .plans => []

section
variable (type : RecordType) (c : Capabilities) (plans : PlanSet)

/-- The way in which an action is carried out on a record, and what comes of it. An override that
ran has the last word: the record is as it left it, no leaf is counted, and its error becomes that
of the whole type. An override that declined leaves the action to the plans. -/
inductive Carries (action : Action) (record : Record) (supply : Entropy) :
    Route → Traversed → Entropy → Prop
  | ran {left : Record} {rest : Entropy} : action ∈ type.overrides →
      type.runOverride action c record supply = ((left, some (.ok ())), rest) →
      Carries action record supply .override (left, .ok 0) rest
  | failed {left : Record} {x : CapabilityError} {rest : Entropy} : action ∈ type.overrides →
      type.runOverride action c record supply = ((left, some (.error x)), rest) →
      Carries action record supply .override
        (left, .error ⟨.ofAction action, action, (type.family type.root).name, .capability x⟩) rest
  | declined {left : Record} {traversed : Traversed} {mid rest : Entropy} :
      action ∈ type.overrides →
      type.runOverride action c record supply = ((left, none), mid) →
      traverse c action (plans.forAction action) left mid = (traversed, rest) →
      Carries action record supply .plans traversed rest
  | unlisted {traversed : Traversed} {rest : Entropy} : action ∉ type.overrides →
      traverse c action (plans.forAction action) record supply = (traversed, rest) →
      Carries action record supply .plans traversed rest

/-- The actions from left to right, with the way of each that is carried out: each on the record
that the one before it has left, up to the first that fails. -/
inductive Folds : List Action → Record → Entropy → List (Action × Route) → Traversed → Entropy →
    Prop
  | nil {record : Record} {supply : Entropy} : Folds [] record supply [] (record, .ok 0) supply
  | stop {action : Action} {later : List Action} {record left : Record} {supply rest : Entropy}
      {route : Route} {e : TransformError} :
      Carries type c plans action record supply route (left, .error e) rest →
      Folds (action :: later) record supply [(action, route)] (left, .error e) rest
  | next {action : Action} {later : List Action} {record mid left : Record}
      {supply supply₁ rest : Entropy} {route : Route} {routes : List (Action × Route)} {n : Nat}
      {outcome : Except TransformError Nat} :
      Carries type c plans action record supply route (mid, .ok n) supply₁ →
      Folds later mid supply₁ routes (left, outcome) rest →
      Folds (action :: later) record supply ((action, route) :: routes)
        (left, outcome.map (n + ·)) rest

variable {type c plans} {action : Action} {record : Record} {supply : Entropy}

/-- An action is carried out in one way. -/
theorem Carries.unique {route route' : Route} {traversed traversed' : Traversed}
    {rest rest' : Entropy} (h : Carries type c plans action record supply route traversed rest)
    (h' : Carries type c plans action record supply route' traversed' rest') :
    route = route' ∧ traversed = traversed' ∧ rest = rest' := by
  cases h with
  | ran listed hrun =>
    cases h' with
    | ran _ hrun' =>
      cases hrun.symm.trans hrun'
      exact ⟨rfl, rfl, rfl⟩
    | failed _ hrun' => cases hrun.symm.trans hrun'
    | declined _ hrun' => cases hrun.symm.trans hrun'
    | unlisted hnot => exact absurd listed hnot
  | failed listed hrun =>
    cases h' with
    | ran _ hrun' => cases hrun.symm.trans hrun'
    | failed _ hrun' =>
      cases hrun.symm.trans hrun'
      exact ⟨rfl, rfl, rfl⟩
    | declined _ hrun' => cases hrun.symm.trans hrun'
    | unlisted hnot => exact absurd listed hnot
  | declined listed hrun ht =>
    cases h' with
    | ran _ hrun' => cases hrun.symm.trans hrun'
    | failed _ hrun' => cases hrun.symm.trans hrun'
    | declined _ hrun' ht' =>
      cases hrun.symm.trans hrun'
      cases ht.symm.trans ht'
      exact ⟨rfl, rfl, rfl⟩
    | unlisted hnot => exact absurd listed hnot
  | unlisted hnot ht =>
    cases h' with
    | ran listed => exact absurd listed hnot
    | failed listed => exact absurd listed hnot
    | declined listed => exact absurd listed hnot
    | unlisted _ ht' =>
      cases ht.symm.trans ht'
      exact ⟨rfl, rfl, rfl⟩

/-- Two types that are no different as far as the action goes: neither lists it, or both do and
treat it alike. What they do of other actions is left open. -/
structure RecordType.Alike (action : Action) (type type' : RecordType) : Prop where
  name : (type'.family type'.root).name = (type.family type.root).name
  listed : action ∈ type'.overrides ↔ action ∈ type.overrides
  same : action ∈ type.overrides → type'.runOverride action = type.runOverride action

theorem RecordType.Alike.symm {type' : RecordType} (h : type.Alike action type') :
    type'.Alike action type :=
  ⟨h.name.symm, h.listed.symm, fun ha => (h.same (h.listed.mp ha)).symm⟩

theorem Carries.alike {type' : RecordType} {route : Route} {traversed : Traversed} {rest : Entropy}
    (h : Carries type c plans action record supply route traversed rest)
    (alike : type.Alike action type') :
    Carries type' c plans action record supply route traversed rest := by
  cases h with
  | ran listed hrun =>
    rw [← alike.same listed] at hrun
    exact .ran (alike.listed.mpr listed) hrun
  | failed listed hrun =>
    rw [← alike.same listed] at hrun
    rw [← alike.name]
    exact .failed (alike.listed.mpr listed) hrun
  | declined listed hrun ht =>
    rw [← alike.same listed] at hrun
    exact .declined (alike.listed.mpr listed) hrun ht
  | unlisted hnot ht => exact .unlisted (fun listed => hnot (alike.listed.mp listed)) ht

theorem traverse_error_action {actionPlans : List FieldPlan} {left : Record} {e : TransformError}
    {rest : Entropy} (h : traverse c action actionPlans record supply = ((left, .error e), rest)) :
    e.action = action := by
  obtain ⟨_, plan, _, _, _, -, -, hplan⟩ := traverse_error h
  obtain ⟨_, -, ⟨_, -, -, rfl⟩ | ⟨_, _, _, _, -, -, -, -, rfl⟩⟩ := FieldPlan.run_error hplan
  · rfl
  · rfl

theorem Carries.error_action {route : Route} {left : Record} {e : TransformError} {rest : Entropy}
    (h : Carries type c plans action record supply route (left, .error e) rest) :
    e.action = action := by
  cases h with
  | failed _ _ => rfl
  | declined _ _ ht => exact traverse_error_action ht
  | unlisted _ ht => exact traverse_error_action ht

/-! ### The actions of a boundary -/

theorem Folds.unique {actions : List Action} {routes routes' : List (Action × Route)}
    {traversed traversed' : Traversed} {rest rest' : Entropy}
    (h : Folds type c plans actions record supply routes traversed rest)
    (h' : Folds type c plans actions record supply routes' traversed' rest') :
    routes = routes' ∧ traversed = traversed' ∧ rest = rest' := by
  induction h generalizing routes' traversed' rest' with
  | nil =>
    cases h'
    exact ⟨rfl, rfl, rfl⟩
  | stop hc =>
    cases h' with
    | stop hc' =>
      obtain ⟨rfl, he, rfl⟩ := hc.unique hc'
      cases he
      exact ⟨rfl, rfl, rfl⟩
    | next hc' => cases (hc.unique hc').2.1
  | next hc _ ih =>
    cases h' with
    | stop hc' => cases (hc.unique hc').2.1
    | next hc' hrest' =>
      obtain ⟨rfl, he, rfl⟩ := hc.unique hc'
      cases he
      obtain ⟨rfl, he, rfl⟩ := ih hrest'
      cases he
      exact ⟨rfl, rfl, rfl⟩

theorem Folds.alike {type' : RecordType} {actions : List Action} {routes : List (Action × Route)}
    {traversed : Traversed} {rest : Entropy}
    (h : Folds type c plans actions record supply routes traversed rest)
    (alike : ∀ action, type.Alike action type') :
    Folds type' c plans actions record supply routes traversed rest := by
  induction h with
  | nil => exact .nil
  | stop hc => exact .stop (hc.alike (alike _))
  | next hc _ ih => exact .next (hc.alike (alike _)) ih

theorem Folds.error_action {actions : List Action} {routes : List (Action × Route)}
    {left : Record} {e : TransformError} {rest : Entropy}
    (h : Folds type c plans actions record supply routes (left, .error e) rest) :
    e.action ∈ actions := by
  generalize ht : ((left, .error e) : Traversed) = traversed at h
  induction h with
  | nil => cases ht
  | stop hc =>
    cases ht
    rw [hc.error_action]
    exact List.mem_cons_self
  | @next _ _ _ _ _ _ _ _ _ _ _ outcome hc _ ih =>
    cases outcome with
    | ok m => cases ht
    | error x =>
      cases ht
      exact List.mem_cons_of_mem _ (ih rfl)

end

/-! ### Sessions -/

namespace Session
open State
variable {w : Work}

/-- The overrides that ran, as they are reported. -/
def reported (routes : List (Action × Route)) : List Event :=
  routes.flatMap fun taken => taken.2.events taken.1

/-- What a crossing makes of a fold: its result, and the last event. -/
def closing (boundary : Boundary) : Traversed → Except ProcessingError Record × Event
  | (left, .ok fields) => (.ok left, .completed boundary fields)
  | (_, .error e) => (.error (.transform e), .failed boundary (.transform e))

theorem perform_carries
    (named : w.processor.typeName = (w.processor.type.family w.processor.type.root).name)
    (action : Action) (record : Record) :
    ∃ route traversed rest,
      Carries w.processor.type w.processor.capabilities w.processor.plans action record w.entropy
        route traversed rest ∧
      perform action record w = (traversed,
        { w with
          entropy := rest
          history := w.history ++ (route.events action).map .reported }) := by
  by_cases listed : action ∈ w.processor.type.overrides
  · rw [perform_override w record listed]
    rcases hrun : w.processor.type.runOverride action w.processor.capabilities record w.entropy with
      ⟨⟨left, ran⟩, mid⟩
    cases ran with
    | none =>
      refine ⟨.plans, _, _, .declined listed hrun rfl, ?_⟩
      rw [Route.events, List.map_nil, List.append_nil]
      rfl
    | some result =>
      cases result with
      | ok u => exact ⟨.override, _, _, .ran listed hrun, rfl⟩
      | error x =>
        refine ⟨.override, _, _, .failed listed hrun, ?_⟩
        rw [← named]
        rfl
  · rw [perform_plans w record listed]
    refine ⟨.plans, _, _, .unlisted listed rfl, ?_⟩
    rw [Route.events, List.map_nil, List.append_nil]
    rfl

theorem performAll_folds
    (named : w.processor.typeName = (w.processor.type.family w.processor.type.root).name)
    (actions : List Action) (record : Record) :
    ∃ routes traversed rest,
      Folds w.processor.type w.processor.capabilities w.processor.plans actions record w.entropy
        routes traversed rest ∧
      performAll actions record w = (traversed,
        { w with entropy := rest, history := w.history ++ (reported routes).map .reported }) := by
  induction actions generalizing record w with
  | nil =>
    refine ⟨[], _, _, .nil, ?_⟩
    rw [reported, List.flatMap_nil, List.map_nil, List.append_nil]
    rfl
  | cons action later ih =>
    obtain ⟨route, ⟨mid, outcome⟩, supply, hc, hperform⟩ := perform_carries named action record
    rw [performAll_cons, hperform]
    cases outcome with
    | error e =>
      refine ⟨_, _, _, .stop hc, ?_⟩
      rw [reported, List.flatMap_singleton]
    | ok n =>
      obtain ⟨routes, ⟨left, outcome⟩, rest, hlater, hall⟩ :=
        ih (w := { w with
          entropy := supply
          history := w.history ++ (route.events action).map .reported }) named mid
      refine ⟨_, _, _, .next hc hlater, ?_⟩
      simp only [hall, reported, List.flatMap_cons, List.map_append, List.append_assoc]

theorem entered_eq (boundary : Boundary) : entered boundary w =
    { processor := w.processor.settled, entropy := w.entropy,
      history := w.history ++ (.started boundary :: askedEvents w.processor).map .reported } := by
  have hhistory : (entered boundary w).history =
      w.history ++ (.started boundary :: askedEvents w.processor).map .reported := by
    simp [entered, validate_history, report_apply]
  rw [← entered_processor, ← entered_entropy w boundary, ← hhistory]

/-- A session after a crossing: its processor has settled on an outcome of validation, and the
events come after the start of the crossing and what validation reports. -/
def crossed (w : Work) (boundary : Boundary) (rest : Entropy) (events : List Event) : Work where
  processor := w.processor.settled
  entropy := rest
  history :=
    w.history ++ (.started boundary :: (askedEvents w.processor ++ events)).map .reported

theorem cross_unvalidated {e : ValidationError} (invalid : w.processor.outcome = .error e)
    (boundary : Boundary) (record : Record) :
    cross boundary record w =
      (.error (.validation e),
        crossed w boundary w.entropy [.failed boundary (.validation e)]) := by
  rw [cross_apply, invalid, entered_eq]
  simp [report_apply, crossed]

/-- A crossing that is validated is a fold over the actions of the boundary. -/
theorem cross_validated
    (named : w.processor.typeName = (w.processor.type.family w.processor.type.root).name)
    (valid : w.processor.outcome = .ok ()) (boundary : Boundary) (record : Record) :
    ∃ routes traversed rest,
      Folds w.processor.type w.processor.capabilities w.processor.plans boundary.actions record
        w.entropy routes traversed rest ∧
      cross boundary record w =
        ((closing boundary traversed).1,
          crossed w boundary rest (reported routes ++ [(closing boundary traversed).2])) := by
  obtain ⟨routes, ⟨left, outcome⟩, rest, hfolds, hall⟩ :=
    performAll_folds (w := entered boundary w) (by rw [entered_processor]; exact named)
      boundary.actions record
  rw [entered_processor, entered_entropy] at hfolds
  refine ⟨routes, (left, outcome), rest, hfolds, ?_⟩
  rw [cross_apply, valid]
  simp only [hall]
  rw [entered_eq]
  cases outcome with
  | error e =>
    simp [report_apply, closing, crossed]
  | ok n =>
    simp [report_apply, closing, crossed]

/-- What an override that is not listed would do makes no difference to a crossing. -/
theorem cross_unlisted
    (named : w.processor.typeName = (w.processor.type.family w.processor.type.root).name)
    {run : Action → Capabilities → Record → Drawn (Record × Option (Except CapabilityError Unit))}
    (same : ∀ action ∈ w.processor.type.overrides, run action = w.processor.type.runOverride action)
    (boundary : Boundary) (record : Record) :
    cross boundary record { w with processor.type.runOverride := run } =
      ((cross boundary record w).1,
        { (cross boundary record w).2 with processor.type.runOverride := run }) := by
  have halike : ∀ action,
      w.processor.type.Alike action { w.processor.type with runOverride := run } :=
    fun action => ⟨rfl, Iff.rfl, same action⟩
  cases ho : w.processor.outcome with
  | error e =>
    have ho' : { w with processor.type.runOverride := run : Work }.processor.outcome = .error e := ho
    rw [cross_unvalidated ho, cross_unvalidated ho']
    rfl
  | ok u =>
    have ho' : { w with processor.type.runOverride := run : Work }.processor.outcome = .ok () := ho
    obtain ⟨routes, traversed, rest, hfolds, hcross⟩ := cross_validated named ho boundary record
    obtain ⟨routes', traversed', rest', hfolds', hcross'⟩ :=
      cross_validated (w := { w with processor.type.runOverride := run }) named ho' boundary record
    obtain ⟨rfl, rfl, rfl⟩ := (hfolds.alike halike).unique hfolds'
    rw [hcross, hcross']
    rfl

/-- **An override replaces its action, and nothing else.** A crossing that is not validated carries
out nothing. One that is goes through the actions of the boundary, each carried out in the one way
that is its own, and its result, the count of fields and the overrides reported are those of the
fold; a failure belongs to the boundary. What an override that is not listed would do makes no
difference to a crossing, and what a type does of one action makes none to how another is carried
out. -/
theorem cross_folds (compiled : PlanSet.compile w.processor.type.family w.processor.type.root =
      .ok w.processor.plans) (boundary : Boundary) (record : Record) :
    (∀ e, w.processor.outcome = .error e → cross boundary record w =
      (.error (.validation e),
        crossed w boundary w.entropy [.failed boundary (.validation e)])) ∧
    (w.processor.outcome = .ok () → ∃ routes traversed rest,
      Folds w.processor.type w.processor.capabilities w.processor.plans boundary.actions record
        w.entropy routes traversed rest ∧
      (∀ routes' traversed' rest',
        Folds w.processor.type w.processor.capabilities w.processor.plans boundary.actions record
          w.entropy routes' traversed' rest' →
        routes = routes' ∧ traversed = traversed' ∧ rest = rest') ∧
      cross boundary record w =
        ((closing boundary traversed).1,
          crossed w boundary rest (reported routes ++ [(closing boundary traversed).2])) ∧
      ∀ e, traversed.2 = .error e → e.boundary = boundary) ∧
    (∀ run, (∀ action ∈ w.processor.type.overrides,
        run action = w.processor.type.runOverride action) →
      cross boundary record { w with processor.type.runOverride := run } =
        ((cross boundary record w).1,
          { (cross boundary record w).2 with processor.type.runOverride := run })) ∧
    ∀ action type', w.processor.type.Alike action type' →
      ∀ record supply route traversed rest,
        Carries type' w.processor.capabilities w.processor.plans action record supply route
            traversed rest ↔
          Carries w.processor.type w.processor.capabilities w.processor.plans action record supply
            route traversed rest := by
  have named : w.processor.typeName = (w.processor.type.family w.processor.type.root).name := by
    obtain ⟨entries, -, hplans⟩ := compile_ok_iff.mp compiled
    rw [Processor.typeName, hplans]
  refine ⟨fun e invalid => cross_unvalidated invalid boundary record, fun valid => ?_,
    fun run same => cross_unlisted named same boundary record,
    fun action type' alike _ _ _ _ _ => ⟨fun h => h.alike alike.symm, fun h => h.alike alike⟩⟩
  obtain ⟨routes, traversed, rest, hfolds, hcross⟩ := cross_validated named valid boundary record
  refine ⟨routes, traversed, rest, hfolds, fun _ _ _ h => hfolds.unique h, hcross, fun e he => ?_⟩
  obtain ⟨left, outcome⟩ := traversed
  cases he
  exact (Action.mem_actions_boundary e.action boundary).mp hfolds.error_action

open Sample in
/-- The override stars the sender and no reader is masked, though there is a plan for that; then
the plans redact the sender and the stamp. -/
theorem letter_starred :
    (cross .send (letter "Ada" "Eve" [7]) starredOffice).1 =
        .ok (letter "-" "Eve" (Utf8.encode "+")) ∧
      (cross .send (letter "Ada" "Eve" [7]) starredOffice).2.events =
        [.started .send, .overridden .mask, .completed .send 2] := by
  obtain ⟨-, hfolds, -⟩ :=
    cross_folds (w := starredOffice) (by cbv) .send (letter "Ada" "Eve" [7])
  obtain ⟨routes, traversed, rest, -, hunique, hcross, -⟩ := hfolds rfl
  have listed : Action.mask ∈ starredOffice.processor.type.overrides := by decide
  have unlisted : Action.redact ∉ starredOffice.processor.type.overrides := by decide
  have hmask : Carries starredOffice.processor.type starredOffice.processor.capabilities
      starredOffice.processor.plans .mask (letter "Ada" "Eve" [7]) supply .override
      (letter "*" "Eve" [7], .ok 0) supply := .ran listed rfl
  have hredact : Carries starredOffice.processor.type starredOffice.processor.capabilities
      starredOffice.processor.plans .redact (letter "*" "Eve" [7]) supply .plans
      (letter "-" "Eve" (Utf8.encode "+"), .ok 2) supply := .unlisted unlisted rfl
  obtain ⟨rfl, rfl, rfl⟩ := hunique _ _ _ (.next hmask (.next hredact .nil))
  rw [hcross]
  exact ⟨rfl, rfl⟩

end Session

end RecordPrivacy
