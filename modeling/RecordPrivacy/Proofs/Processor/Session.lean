import RecordPrivacy.Processor
import RecordPrivacy.Proofs.State

/-! What a session does to its processor, and when a boundary is crossed.

Whatever crosses a boundary settles the outcome of validation and changes nothing else of the
processor (`cross_processor`). The crossing succeeds if that outcome is good and all of the
boundary's actions succeed (`cross_ok_iff`). -/
namespace RecordPrivacy

namespace Processor

/-- The outcome of validation: the one that was kept, else what validation comes to now. -/
def outcome (p : Processor) : Except ValidationError Unit :=
  p.validation.getD (p.capabilities.validate p.plans p.type.overrides)

/-- The processor with its outcome kept. -/
def settled (p : Processor) : Processor :=
  { p with validation := some p.outcome }

@[simp] theorem outcome_settled (p : Processor) : p.settled.outcome = p.outcome := rfl

end Processor

/-! ### What a session has done -/

namespace Occurrence

@[simp] theorem event?_reported (event : Event) : (reported event).event? = some event := rfl

@[simp] theorem event?_called (call : CodecCall) : (called call).event? = none := rfl

@[simp] theorem call?_reported (event : Event) : (reported event).call? = none := rfl

@[simp] theorem call?_called (call : CodecCall) : (called call).call? = some call := rfl

@[simp] theorem event?_comp_reported : event? ∘ reported = some := rfl

@[simp] theorem call?_comp_called : call? ∘ called = some := rfl

end Occurrence

namespace Session
open State
variable (w : Work)

/-! ### Validation -/

theorem processor_apply : processor w = (w.processor, w) := rfl

theorem report_apply (event : Event) :
    report event w = ((), { w with history := w.history ++ [.reported event] }) := rfl

theorem validate_kept {outcome : Except ValidationError Unit}
    (h : w.processor.validation = some outcome) : validate w = (outcome, w) := by
  simp only [validate, bind_apply, processor_apply, h, pure_apply]

/-- What validation reports of its outcome when it is decided. -/
def validationEvents : Except ValidationError Unit → List Event
  | .ok () => []
  | .error e => [.validationFailed e]

theorem validate_fresh (h : w.processor.validation = none) :
    validate w = (w.processor.outcome,
      { w with
        processor := w.processor.settled
        history := w.history ++ (validationEvents w.processor.outcome).map .reported }) := by
  have ho : w.processor.outcome =
      w.processor.capabilities.validate w.processor.plans w.processor.type.overrides := by
    rw [Processor.outcome, h, Option.getD_none]
  simp only [validate, bind_apply, processor_apply, h, ← ho, Processor.settled]
  cases w.processor.outcome with
  | error e => rfl
  | ok u => simp [validationEvents, bind_apply, pure_apply, modify_apply]

theorem validate_outcome : (validate w).1 = w.processor.outcome := by
  cases h : w.processor.validation with
  | some outcome => rw [validate_kept w h, Processor.outcome, h, Option.getD_some]
  | none => rw [validate_fresh w h]

theorem validate_processor : (validate w).2.processor = w.processor.settled := by
  cases h : w.processor.validation with
  | some outcome =>
    have ho : w.processor.outcome = outcome := by rw [Processor.outcome, h, Option.getD_some]
    rw [validate_kept w h, Processor.settled, ho, ← h]
  | none => rw [validate_fresh w h]

theorem validate_entropy : (validate w).2.entropy = w.entropy := by
  cases h : w.processor.validation with
  | some outcome => rw [validate_kept w h]
  | none => rw [validate_fresh w h]

/-! ### Actions -/

theorem draw_apply {α : Type} (drawn : Drawn α) :
    draw drawn w = ((drawn w.entropy).1, { w with entropy := (drawn w.entropy).2 }) := rfl

/-- An action that is not overridden is carried out by its plans. -/
theorem perform_plans {action : Action} (record : Record)
    (h : action ∉ w.processor.type.overrides) :
    perform action record w =
      draw (traverse w.processor.capabilities action (w.processor.plans.forAction action) record)
        w :=
  congrFun (if_neg h) w

theorem perform_ok_iff {w w' : Work} {action : Action} {record result : Record} {n : Nat}
    (h : action ∉ w.processor.type.overrides) :
    perform action record w = ((result, .ok n), w') ↔ ∃ supply,
      traverse w.processor.capabilities action (w.processor.plans.forAction action) record
        w.entropy = ((result, .ok n), supply) ∧ w' = { w with entropy := supply } := by
  rw [perform_plans w record h, draw_apply]
  constructor
  · intro hp
    obtain ⟨hresult, hwork⟩ := Prod.mk.inj hp
    exact ⟨_, Prod.ext hresult rfl, hwork.symm⟩
  · intro ht
    obtain ⟨supply, ht, rfl⟩ := ht
    rw [ht]

/-- An override that declines leaves the action to the plans. -/
theorem perform_override {action : Action} (record : Record)
    (h : action ∈ w.processor.type.overrides) :
    perform action record w =
      match w.processor.type.runOverride action w.processor.capabilities record w.entropy with
      | ((mid, some result), supply) =>
        ((mid, overrideResult w.processor.typeName action result),
          { w with entropy := supply, history := w.history ++ [.reported (.overridden action)] })
      | ((mid, none), supply) =>
        draw (traverse w.processor.capabilities action (w.processor.plans.forAction action) mid)
          { w with entropy := supply } := by
  refine (congrFun (if_pos h) w).trans ?_
  rw [bind_apply, draw_apply]
  rcases w.processor.type.runOverride action w.processor.capabilities record w.entropy with
    ⟨⟨mid, ran⟩, supply⟩
  cases ran <;> rfl

theorem perform_processor (action : Action) (record : Record) :
    (perform action record w).2.processor = w.processor := by
  by_cases h : action ∈ w.processor.type.overrides
  · rw [perform_override w record h]
    rcases w.processor.type.runOverride action w.processor.capabilities record w.entropy with
      ⟨⟨mid, ran⟩, supply⟩
    cases ran <;> rfl
  · rw [perform_plans w record h]
    rfl

theorem performAll_cons (action : Action) (rest : List Action) (record : Record) :
    performAll (action :: rest) record w =
      match perform action record w with
      | ((mid, .error e), w₁) => ((mid, .error e), w₁)
      | ((mid, .ok n), w₁) =>
        let out := performAll rest mid w₁
        ((out.1.1, out.1.2.map (n + ·)), out.2) := by
  rw [performAll, bind_apply]
  rcases perform action record w with ⟨⟨mid, outcome⟩, w₁⟩
  cases outcome <;> rfl

theorem performAll_cons_ok {action : Action} {rest : List Action} {record result : Record}
    {count : Nat} {w w' : Work} :
    performAll (action :: rest) record w = ((result, .ok count), w') ↔
      ∃ mid n w₁ m, perform action record w = ((mid, .ok n), w₁) ∧
        performAll rest mid w₁ = ((result, .ok m), w') ∧ count = n + m := by
  rw [performAll_cons]
  rcases hp : perform action record w with ⟨⟨mid, outcome⟩, w₁⟩
  cases outcome with
  | error e =>
    constructor
    · intro h
      cases h
    · intro h
      obtain ⟨_, _, _, _, h, -⟩ := h
      cases h
  | ok n =>
    rcases hrest : performAll rest mid w₁ with ⟨⟨last, outcome⟩, w₂⟩
    constructor
    · intro h
      simp only [hrest] at h
      cases outcome with
      | error e => cases h
      | ok m =>
        cases h
        exact ⟨mid, n, w₁, m, rfl, hrest, rfl⟩
    · intro h
      obtain ⟨_, _, _, m, h, h', rfl⟩ := h
      cases h
      rw [hrest] at h'
      cases h'
      simp only [hrest]
      rfl

theorem performAll_processor (actions : List Action) (record : Record) :
    (performAll actions record w).2.processor = w.processor := by
  induction actions generalizing record w with
  | nil => rfl
  | cons action rest ih =>
    have hfirst := perform_processor w action record
    rw [performAll_cons]
    rcases hp : perform action record w with ⟨⟨mid, outcome⟩, w₁⟩
    rw [hp] at hfirst
    cases outcome with
    | error e => exact hfirst
    | ok n => exact (ih w₁ mid).trans hfirst

/-- It comes to be the turn of an action, on the record that the actions before it have left. -/
def Reaches (actions : List Action) (record : Record) (action : Action) (mid : Record)
    (w₁ : Work) : Prop :=
  ∃ done rest n, actions = done ++ action :: rest ∧
    performAll done record w = ((mid, .ok n), w₁)

theorem Reaches.processor {w w₁ : Work} {actions : List Action} {action : Action}
    {record mid : Record} (h : Reaches w actions record action mid w₁) :
    w₁.processor = w.processor := by
  obtain ⟨done, _, _, -, hdone⟩ := h
  have hkept := performAll_processor w done record
  rwa [hdone] at hkept

/-- Of actions that fail one fails when its turn comes. -/
theorem performAll_error {w w' : Work} {actions : List Action} {record result : Record}
    {e : TransformError} (h : performAll actions record w = ((result, .error e), w')) :
    ∃ action mid w₁, Reaches w actions record action mid w₁ ∧
      perform action mid w₁ = ((result, .error e), w') := by
  induction actions generalizing record w with
  | nil => cases h
  | cons first rest ih =>
    rw [performAll_cons] at h
    rcases hp : perform first record w with ⟨⟨mid, outcome⟩, w₁⟩
    rw [hp] at h
    cases outcome with
    | error x =>
      cases h
      exact ⟨first, record, w, ⟨[], rest, 0, rfl, rfl⟩, hp⟩
    | ok n =>
      rcases hrest : performAll rest mid w₁ with ⟨⟨last, outcome⟩, w₂⟩
      simp only [hrest] at h
      cases outcome with
      | ok m => cases h
      | error x =>
        cases h
        obtain ⟨action, mid', w₃, ⟨done, later, m, rfl, hdone⟩, hfails⟩ := ih hrest
        exact ⟨action, mid', w₃, ⟨first :: done, later, n + m, rfl,
          performAll_cons_ok.mpr ⟨mid, n, w₁, m, hp, hdone, rfl⟩⟩, hfails⟩

/-! ### Boundaries -/

/-- A session that has started on a boundary and has been validated. -/
def entered (boundary : Boundary) (w : Work) : Work :=
  (validate (report (.started boundary) w).2).2

theorem entered_processor (boundary : Boundary) :
    (entered boundary w).processor = w.processor.settled :=
  validate_processor _

theorem entered_entropy (boundary : Boundary) : (entered boundary w).entropy = w.entropy :=
  validate_entropy _

theorem cross_apply (boundary : Boundary) (record : Record) :
    cross boundary record w =
      match w.processor.outcome with
      | .error e =>
        (.error (.validation e), (report (.failed boundary (.validation e)) (entered boundary w)).2)
      | .ok () =>
        match performAll boundary.actions record (entered boundary w) with
        | ((_, .error e), w₁) =>
          (.error (.transform e), (report (.failed boundary (.transform e)) w₁).2)
        | ((result, .ok n), w₁) => (.ok result, (report (.completed boundary n) w₁).2) := by
  have hv : validate (report (.started boundary) w).2 =
      (w.processor.outcome, entered boundary w) :=
    Prod.ext (validate_outcome _) rfl
  simp only [cross, bind_apply, hv]
  cases w.processor.outcome with
  | error e => rfl
  | ok u =>
    simp only [bind_apply]
    rcases performAll boundary.actions record (entered boundary w) with ⟨⟨result, outcome⟩, w₁⟩
    cases outcome <;> rfl

theorem cross_processor (boundary : Boundary) (record : Record) :
    (cross boundary record w).2.processor = w.processor.settled := by
  rw [cross_apply]
  cases w.processor.outcome with
  | error e => exact entered_processor w boundary
  | ok u =>
    have hall := performAll_processor (entered boundary w) boundary.actions record
    rcases hp : performAll boundary.actions record (entered boundary w) with
      ⟨⟨result, outcome⟩, w₁⟩
    rw [hp, entered_processor] at hall
    cases outcome <;> exact hall

theorem cross_ok_iff {boundary : Boundary} {record result : Record} :
    (cross boundary record w).1 = .ok result ↔
      w.processor.outcome = .ok () ∧
        ∃ n w₁, performAll boundary.actions record (entered boundary w) =
          ((result, .ok n), w₁) := by
  rw [cross_apply]
  cases w.processor.outcome with
  | error e =>
    constructor
    · intro h
      cases h
    · intro h
      obtain ⟨h, -⟩ := h
      cases h
  | ok u =>
    rcases hp : performAll boundary.actions record (entered boundary w) with
      ⟨⟨mid, outcome⟩, w₁⟩
    cases outcome with
    | error e =>
      constructor
      · intro h
        cases h
      · intro h
        obtain ⟨-, _, _, h⟩ := h
        cases h
    | ok n =>
      constructor
      · intro h
        cases h
        exact ⟨rfl, n, w₁, rfl⟩
      · intro h
        obtain ⟨-, _, _, h⟩ := h
        cases h
        rfl

/-- A crossing that fails in a transform fails in one of its actions. -/
theorem of_cross_error {boundary : Boundary} {record : Record} {e : TransformError}
    (h : (cross boundary record w).1 = .error (.transform e)) :
    w.processor.outcome = .ok () ∧
      ∃ result w₁, performAll boundary.actions record (entered boundary w) =
        ((result, .error e), w₁) := by
  rw [cross_apply] at h
  cases ho : w.processor.outcome with
  | error x =>
    simp only [ho] at h
    cases h
  | ok u =>
    rcases hp : performAll boundary.actions record (entered boundary w) with
      ⟨⟨result, outcome⟩, w₁⟩
    simp only [ho, hp] at h
    cases outcome with
    | error x =>
      cases h
      exact ⟨rfl, result, w₁, rfl⟩
    | ok n => cases h

/-- One action that is not overridden succeeds just if its plans do. -/
theorem performAll_single {action : Action} {record result : Record}
    (h : action ∉ w.processor.type.overrides) :
    (∃ n w₁, performAll [action] record w = ((result, .ok n), w₁)) ↔
      ∃ n supply, traverse w.processor.capabilities action (w.processor.plans.forAction action)
        record w.entropy = ((result, .ok n), supply) := by
  constructor
  · intro hall
    obtain ⟨_, _, hall⟩ := hall
    obtain ⟨mid, n, w₁, m, hfirst, hrest, -⟩ := performAll_cons_ok.mp hall
    cases hrest
    obtain ⟨supply, ht, -⟩ := (perform_ok_iff h).mp hfirst
    exact ⟨n, supply, ht⟩
  · intro ht
    obtain ⟨n, supply, ht⟩ := ht
    exact ⟨_, _, performAll_cons_ok.mpr ⟨result, n, _, 0, (perform_ok_iff h).mpr ⟨supply, ht, rfl⟩,
      rfl, rfl⟩⟩

/-- Two actions that are not overridden: the plans of the one, then those of the other. -/
theorem performAll_pair {first second : Action} {record result : Record}
    (h : first ∉ w.processor.type.overrides) (h' : second ∉ w.processor.type.overrides) :
    (∃ n w₁, performAll [first, second] record w = ((result, .ok n), w₁)) ↔
      ∃ mid n supply m supply',
        traverse w.processor.capabilities first (w.processor.plans.forAction first) record
          w.entropy = ((mid, .ok n), supply) ∧
        traverse w.processor.capabilities second (w.processor.plans.forAction second) mid supply =
          ((result, .ok m), supply') := by
  constructor
  · intro hall
    obtain ⟨_, _, hall⟩ := hall
    obtain ⟨mid, n, w₁, m, hfirst, hrest, -⟩ := performAll_cons_ok.mp hall
    obtain ⟨supply, ht, rfl⟩ := (perform_ok_iff h).mp hfirst
    obtain ⟨k, supply', ht'⟩ :=
      (performAll_single { w with entropy := supply } h').mp ⟨_, _, hrest⟩
    exact ⟨mid, n, supply, k, supply', ht, ht'⟩
  · intro ht
    obtain ⟨mid, n, supply, m, supply', ht, ht'⟩ := ht
    obtain ⟨k, w₁, hrest⟩ :=
      (performAll_single { w with entropy := supply } h').mpr ⟨m, supply', ht'⟩
    exact ⟨_, _, performAll_cons_ok.mpr ⟨mid, n, _, k,
      (perform_ok_iff h).mpr ⟨supply, ht, rfl⟩, hrest, rfl⟩⟩

/-- A boundary with one action that is not overridden: its plans decide. -/
theorem cross_single {boundary : Boundary} {action : Action} {record result : Record}
    (single : boundary.actions = [action]) (h : action ∉ w.processor.type.overrides) :
    (cross boundary record w).1 = .ok result ↔
      w.processor.outcome = .ok () ∧
        ∃ n supply, traverse w.processor.capabilities action (w.processor.plans.forAction action)
          record w.entropy = ((result, .ok n), supply) := by
  rw [cross_ok_iff, single]
  have hentered := entered_processor w boundary
  rw [performAll_single (entered boundary w) (by rw [hentered]; exact h), hentered,
    entered_entropy]
  rfl

/-- The crossing fails as its plans do. -/
theorem cross_single_error {boundary : Boundary} {action : Action} {record result : Record}
    {e : TransformError} {supply : Entropy} (single : boundary.actions = [action])
    (h : action ∉ w.processor.type.overrides) (valid : w.processor.outcome = .ok ())
    (ht : traverse w.processor.capabilities action (w.processor.plans.forAction action) record
      w.entropy = ((result, .error e), supply)) :
    (cross boundary record w).1 = .error (.transform e) := by
  have hentered := entered_processor w boundary
  have hperform := perform_plans (entered boundary w) record (by rw [hentered]; exact h)
  rw [hentered, draw_apply, entered_entropy] at hperform
  have ht' : traverse w.processor.settled.capabilities action
      (w.processor.settled.plans.forAction action) record w.entropy =
        ((result, .error e), supply) := ht
  rw [ht'] at hperform
  rw [cross_apply, valid, single, performAll_cons, hperform]

/-- A boundary with two actions that are not overridden. -/
theorem cross_pair {boundary : Boundary} {first second : Action} {record result : Record}
    (pair : boundary.actions = [first, second]) (h : first ∉ w.processor.type.overrides)
    (h' : second ∉ w.processor.type.overrides) :
    (cross boundary record w).1 = .ok result ↔
      w.processor.outcome = .ok () ∧ ∃ mid n supply m supply',
        traverse w.processor.capabilities first (w.processor.plans.forAction first) record
          w.entropy = ((mid, .ok n), supply) ∧
        traverse w.processor.capabilities second (w.processor.plans.forAction second) mid supply =
          ((result, .ok m), supply') := by
  rw [cross_ok_iff, pair]
  have hentered := entered_processor w boundary
  rw [performAll_pair (entered boundary w) (by rw [hentered]; exact h)
    (by rw [hentered]; exact h'), hentered, entered_entropy]
  rfl

end Session

end RecordPrivacy
