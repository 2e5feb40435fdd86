import RecordPrivacy.Proofs.Processor.CodecCalls
import RecordPrivacy.Proofs.Traversal.Effect
import Mathlib.Algebra.Ring.Nat

/-! The turns of actions at a boundary.

Actions take turns, up to the first that fails (`turns`). In its turn an action is carried out by an
override, which is reported, or by its plans, which are counted if they lead to a leaf of the record
that they start from. A crossing reports and counts what its turns come to, and no more
(`performAll_turns`, `cross_turns`). What an operation reports beside is said of the codec, or of a
record that is not shown, after the crossing (`reports_turns`). -/
namespace RecordPrivacy

/-! ### What a traversal counts -/

section
variable {c : Capabilities} {action : Action} {record result : Record} {supply supply' : Entropy}

/-- Records of one frame have their leaves in the same places. -/
theorem FieldPlan.present_of_frame {a b : Record} {plan : FieldPlan}
    (h : (b.at? plan.path).map Content.frame = (a.at? plan.path).map Content.frame) :
    plan.present b = plan.present a := by
  have hleaf : ∀ {a b : Record},
      (b.at? plan.path).map Content.frame = (a.at? plan.path).map Content.frame →
        plan.present a = true → plan.present b = true := by
    intro a b h ha
    obtain ⟨leaf, hleaf⟩ := Option.isSome_iff_exists.mp ha
    obtain ⟨leaf', hleaf', -⟩ := Record.exists_leaf_of_frame h hleaf
    exact Option.isSome_iff_exists.mpr ⟨leaf', hleaf'⟩
  exact Bool.eq_iff_iff.mpr ⟨hleaf h.symm, hleaf h⟩

/-- A plan that succeeds is counted if it leads to a leaf, and moves no leaf. -/
theorem FieldPlan.run_count {plan : FieldPlan} {count : Nat}
    (h : plan.run c action record supply = ((result, .ok count), supply')) :
    count = (plan.present record).toNat ∧
      ∀ other : FieldPlan, other.present result = other.present record := by
  rcases run_ok h with ⟨hnone, rfl, rfl, -⟩ | ⟨leaf, t, leaf', hleaf, -, rfl, rfl, hshape, hvisit⟩
  · rw [present, hnone]
    exact ⟨rfl, fun _ => rfl⟩
  · have hpresent : plan.present record = true := by rw [present, hleaf]; rfl
    rw [hpresent]
    exact ⟨rfl, fun other => present_of_frame
      (Record.frame_replace hleaf hshape hvisit.elementwise.names other.path)⟩

/-- A traversal that succeeds counts the plans that lead to a leaf of the record as it was, and moves
no leaf. -/
theorem traverse_count {plans : List FieldPlan} {count : Nat}
    (h : traverse c action plans record supply = ((result, .ok count), supply')) :
    count = plans.countP (·.present record) ∧
      ∀ other : FieldPlan, other.present result = other.present record := by
  induction plans generalizing record supply count with
  | nil =>
    cases h
    exact ⟨rfl, fun _ => rfl⟩
  | cons first rest ih =>
    obtain ⟨mid, n, supply₁, m, hfirst, hrest, rfl⟩ := traverse_cons_ok.mp h
    obtain ⟨rfl, hkept⟩ := FieldPlan.run_count hfirst
    obtain ⟨rfl, hlater⟩ := ih hrest
    have hcongr : rest.countP (·.present mid) = rest.countP (·.present record) :=
      List.countP_congr fun plan _ => by rw [hkept plan]
    refine ⟨?_, fun other => (hlater other).trans (hkept other)⟩
    rw [hcongr, List.countP_cons]
    cases first.present record <;> simp [Nat.add_comm]

end

/-! ### Turns -/

/-- The turn of an action: the record that it finds, and the session. -/
structure Turn where
  action : Action
  record : Record
  work : Work

namespace Turn

/-- What the override answers, if the type has one for the action and it runs. -/
def override? (turn : Turn) : Option (Except CapabilityError Unit) :=
  let p := turn.work.processor
  if turn.action ∈ p.type.overrides then
    (p.type.runOverride turn.action p.capabilities turn.record turn.work.entropy).1.2
  else none

/-- The record from which the plans would start: an override that declines may have changed it. -/
def start (turn : Turn) : Record :=
  let p := turn.work.processor
  if turn.action ∈ p.type.overrides then
    (p.type.runOverride turn.action p.capabilities turn.record turn.work.entropy).1.1
  else turn.record

/-- The number of plans that lead to a leaf; an override that runs leaves none to carry out. -/
def fields (turn : Turn) : Nat :=
  if turn.override?.isSome then 0
  else (turn.work.processor.plans.forAction turn.action).countP (·.present turn.start)

end Turn

/-- The turns that actions have, in order. An action that fails is the last to have one. -/
def turns (w : Work) : List Action → Record → List Turn
  | [], _ => []
  | action :: rest, record =>
    ⟨action, record, w⟩ ::
      match Session.perform action record w with
      | ((_, .error _), _) => []
      | ((mid, .ok _), w₁) => turns w₁ rest mid

/-- The actions whose override ran, in order. -/
def overridden (turns : List Turn) : List Action :=
  (turns.filter (·.override?.isSome)).map Turn.action

namespace Session
open State
variable (w : Work)

/-- What is reported and counted of an action in its turn. -/
theorem perform_turn (action : Action) (record : Record) :
    (perform action record w).2.events =
        w.events ++ (overridden [⟨action, record, w⟩]).map .overridden ∧
      ∀ mid n w₁, perform action record w = ((mid, .ok n), w₁) →
        n = (⟨action, record, w⟩ : Turn).fields := by
  rw [overridden, List.filter_singleton, Turn.fields, Turn.start, Turn.override?]
  by_cases h : action ∈ w.processor.type.overrides
  · rw [if_pos h, if_pos h, perform_override w record h]
    rcases w.processor.type.runOverride action w.processor.capabilities record w.entropy with
      ⟨⟨left, ran⟩, supply⟩
    cases ran with
    | some result =>
      refine ⟨report_events { w with entropy := supply } (.overridden action),
        fun mid n w₁ hok => ?_⟩
      cases result with
      | ok u =>
        cases hok
        rfl
      | error x => cases hok
    | none =>
      refine ⟨(List.append_nil _).symm, fun mid n w₁ hok => ?_⟩
      obtain ⟨ht, -⟩ := Prod.mk.inj hok
      exact (traverse_count (Prod.ext ht rfl)).1
  · rw [if_neg h, if_neg h, perform_plans w record h]
    refine ⟨(List.append_nil _).symm, fun mid n w₁ hok => ?_⟩
    obtain ⟨ht, -⟩ := Prod.mk.inj hok
    exact (traverse_count (Prod.ext ht rfl)).1

/-- Actions report and count what their turns come to. -/
theorem performAll_turns (actions : List Action) (record : Record) :
    (performAll actions record w).2.events =
        w.events ++ (overridden (turns w actions record)).map .overridden ∧
      ∀ result n w₁, performAll actions record w = ((result, .ok n), w₁) →
        n = ((turns w actions record).map Turn.fields).sum := by
  induction actions generalizing record w with
  | nil =>
    refine ⟨(List.append_nil _).symm, fun result n w₁ hok => ?_⟩
    cases hok
    rfl
  | cons action rest ih =>
    obtain ⟨hevents, hcount⟩ := perform_turn w action record
    rw [performAll_cons, turns]
    rcases hp : perform action record w with ⟨⟨mid, outcome⟩, w₁⟩
    rw [hp] at hevents
    cases outcome with
    | error e => exact ⟨hevents, fun result n w₂ hok => by cases hok⟩
    | ok n =>
      obtain ⟨hlater, hrest⟩ := ih w₁ mid
      have happend : ∀ (turn : Turn) (later : List Turn),
          overridden (turn :: later) = overridden [turn] ++ overridden later := by
        intro turn later
        rw [overridden, ← List.singleton_append, List.filter_append, List.map_append]
        rfl
      constructor
      · rw [happend, List.map_append, ← List.append_assoc, ← hevents]
        exact hlater
      · intro result m w₂ hok
        obtain ⟨_, _, _, k, hfirst, hall, rfl⟩ := performAll_cons_ok.mp
          ((performAll_cons w action rest record).trans (by rw [hp]; exact hok))
        rw [hp] at hfirst
        cases hfirst
        rw [List.map_cons, List.sum_cons, ← hcount _ _ _ hp, ← hrest _ _ _ hall]

/-- The turns that the actions of a boundary have: none, if validation fails. -/
def turnsAt (boundary : Boundary) (record : Record) : List Turn :=
  match w.processor.outcome with
  | .error _ => []
  | .ok () => turns (entered boundary w) boundary.actions record

/-- The last event of a crossing. -/
def closingEvent (boundary : Boundary) (fields : Nat) : Except ProcessingError Record → Event
  | .ok _ => .completed boundary fields
  | .error e => .failed boundary e

/-- A crossing reports that it starts, what validation reports, the overrides that ran in their
turns, and how it ends, with the fields counted in the turns. -/
theorem cross_turns (boundary : Boundary) (record : Record) :
    (cross boundary record w).2.events = w.events ++ .started boundary ::
      (askedEvents w.processor ++ ((overridden (turnsAt w boundary record)).map .overridden ++
        [closingEvent boundary ((turnsAt w boundary record).map Turn.fields).sum
          (cross boundary record w).1])) := by
  have hentered : (entered boundary w).events =
      w.events ++ .started boundary :: askedEvents w.processor := by
    rw [entered, validate_events, report_events, List.append_assoc]
    rfl
  rw [cross_apply, turnsAt]
  cases w.processor.outcome with
  | error e =>
    rw [report_events, hentered, List.append_assoc]
    rfl
  | ok u =>
    obtain ⟨hevents, hcount⟩ := performAll_turns (entered boundary w) boundary.actions record
    rcases hp : performAll boundary.actions record (entered boundary w) with ⟨⟨result, outcome⟩, w₁⟩
    rw [hp, hentered] at hevents
    have hclosed : ∀ closing : Event, (report closing w₁).2.events = w.events ++
        .started boundary :: (askedEvents w.processor ++
          ((overridden (turns (entered boundary w) boundary.actions record)).map .overridden ++
            [closing])) := by
      intro closing
      rw [report_events, show w₁.events = _ from hevents]
      simp
    cases outcome with
    | error e => exact hclosed _
    | ok n =>
      rw [hcount _ _ _ hp]
      exact hclosed _

end Session

/-! ### What follows a crossing -/

namespace Processor
variable (p : Processor)

/-- What the codec makes of a record that has crossed. -/
def marshalled (record : Record) : Except ProcessingError Bytes :=
  match p.codec with
  | none => .error (.codec .notConfigured)
  | some codec => (codec.encode record).mapError fun fault => .codec (.encode fault)

/-- What may be logged of a record that was sent, or that could not be. -/
def shown : Except ProcessingError Record → Json
  | .error _ => .text "Failed to apply send boundary"
  | .ok sent =>
    match p.type.toJson sent with
    | .ok json => json
    | .error _ => .text "Failed to serialize outbound value"

def unserializable? : Except ProcessingError Record → Option String
  | .error _ => none
  | .ok sent =>
    match p.type.toJson sent with
    | .ok _ => none
    | .error reason => some reason

end Processor

namespace Operation

/-- The answer of an operation that crosses a boundary with the result. -/
def answering (p : Processor) (result : Except ProcessingError Record) : Operation → Answer
  | .write _ => .bytes (result.bind p.marshalled)
  | .encode _ => .bytes (result.bind p.marshalled)
  | .loggable _ => .json (p.shown result)
  | _ => .record result

/-- What it reports after the crossing. -/
def coda (p : Processor) (result : Except ProcessingError Record) : Operation → List Event
  | .write _ => p.codings .store result
  | .encode _ => p.codings .send result
  | .loggable _ => ((p.unserializable? result).map .notSerializable).toList
  | _ => []

end Operation

namespace Session
open State
variable (w : Work)

theorem outbound_coda (boundary : Boundary) (record : Record) :
    (outbound boundary record w).1 = (cross boundary record w).1.bind w.processor.marshalled ∧
      (outbound boundary record w).2.events = (cross boundary record w).2.events ++
        w.processor.codings boundary (cross boundary record w).1 := by
  constructor
  · rw [outbound_result]
    cases (cross boundary record w).1 with
    | error e => rfl
    | ok crossed =>
      simp only [Except.bind, Processor.marshalled, marshal_apply]
      cases w.processor.codec with
      | none => rfl
      | some codec =>
        simp only
        cases codec.encode crossed <;> rfl
  · rw [outbound_work, Work.seen_coded_events]

theorem loggable_coda (record : Record) :
    (loggable record w).1 = w.processor.shown (cross .send record w).1 ∧
      (loggable record w).2.events = (cross .send record w).2.events ++
        ((w.processor.unserializable? (cross .send record w).1).map .notSerializable).toList := by
  have htype : (cross .send record w).2.processor.type = w.processor.type := by
    rw [cross_processor]
    rfl
  rw [loggable, bind_apply, send]
  rcases hc : cross .send record w with ⟨outcome, w₁⟩
  rw [hc] at htype
  cases outcome with
  | error e => exact ⟨rfl, (List.append_nil _).symm⟩
  | ok sent =>
    rw [Processor.shown, Processor.unserializable?,
      ← show w₁.processor.type = w.processor.type from htype]
    simp only [bind_apply, processor_apply]
    cases w₁.processor.type.toJson sent with
    | ok json => exact ⟨rfl, (List.append_nil _).symm⟩
    | error reason => exact ⟨rfl, report_events w₁ _⟩

end Session

/-! ### One operation -/

namespace Operation
variable {op : Operation} {w : Work}

theorem run_coda {boundary : Boundary} {record : Record}
    (h : op.crossing? w.processor = some (boundary, record)) :
    (op.run w).1 = op.answering w.processor (Session.cross boundary record w).1 ∧
      (op.run w).2.events = (Session.cross boundary record w).2.events ++
        op.coda w.processor (Session.cross boundary record w).1 := by
  have hinbound : ∀ (boundary : Boundary) {data : Bytes} {record : Record},
      w.processor.decoded? data = some record →
      ((do return Answer.record (← Session.inbound boundary data)) w).1 =
          .record (Session.cross boundary record w).1 ∧
        ((do return Answer.record (← Session.inbound boundary data)) w).2.events =
          (Session.cross boundary record w).2.events ++ [] := by
    intro boundary data record hdecoded
    obtain ⟨hresult, hwork⟩ := Session.inbound_decoded w boundary hdecoded
    rw [State.bind_apply, hresult, List.append_nil]
    exact ⟨rfl, hwork.events⟩
  cases op with
  | cross boundary' record' =>
    cases h
    exact ⟨rfl, (List.append_nil _).symm⟩
  | decode data =>
    obtain ⟨_, hdecoded, h⟩ := Option.map_eq_some_iff.mp h
    cases h
    exact hinbound .receive hdecoded
  | read data =>
    obtain ⟨_, hdecoded, h⟩ := Option.map_eq_some_iff.mp h
    cases h
    exact hinbound .load hdecoded
  | write record' =>
    cases h
    obtain ⟨hanswer, hevents⟩ := Session.outbound_coda w .store record
    exact ⟨congrArg Answer.bytes hanswer, hevents⟩
  | encode record' =>
    cases h
    obtain ⟨hanswer, hevents⟩ := Session.outbound_coda w .send record
    exact ⟨congrArg Answer.bytes hanswer, hevents⟩
  | loggable record' =>
    cases h
    obtain ⟨hanswer, hevents⟩ := Session.loggable_coda w record
    exact ⟨congrArg Answer.json hanswer, hevents⟩
  | _ => cases h

/-- All that an operation reports which crosses a boundary. -/
theorem reports_turns {boundary : Boundary} {record : Record}
    (h : op.crossing? w.processor = some (boundary, record)) :
    op.reports w = .started boundary :: (Session.askedEvents w.processor ++
      ((overridden (Session.turnsAt w boundary record)).map .overridden ++
        Session.closingEvent boundary ((Session.turnsAt w boundary record).map Turn.fields).sum
          (Session.cross boundary record w).1 ::
            op.coda w.processor (Session.cross boundary record w).1)) := by
  refine reports_eq ?_
  rw [(run_coda h).2, Session.cross_turns]
  simp

/-- Nothing that was reported is taken back. -/
theorem run_events (op : Operation) (w : Work) :
    (op.run w).2.events = w.events ++ op.reports w := by
  have hgrown : ∃ tail, (op.run w).2.events = w.events ++ tail := by
    cases hasks : op.asks w.processor with
    | false =>
      obtain ⟨tail, hrun, -⟩ := (run_unasked hasks).1.events
      exact ⟨tail, hrun⟩
    | true =>
      rcases asks_iff.mp hasks with rfl | ⟨boundary, record, hcrossing⟩
      · exact ⟨_, Session.validate_events w⟩
      · rw [(run_coda hcrossing).2, Session.cross_turns, List.append_assoc]
        exact ⟨_, rfl⟩
  obtain ⟨tail, htail⟩ := hgrown
  rw [reports_eq htail, htail]

end Operation

end RecordPrivacy
