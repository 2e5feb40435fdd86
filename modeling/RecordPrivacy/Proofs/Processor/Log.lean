import RecordPrivacy.Log
import RecordPrivacy.Proofs.Processor.Turns
import RecordPrivacy.Sample.Codecs
import RecordPrivacy.Sample.Letters

/-! The log of a run.

What an operation logs that crosses a boundary is settled by the turns of the boundary's actions and
by the result of the crossing (`Operation.log_crossing`): the start of the crossing, a validation
that fails for the first time, the overrides that ran, the end, and what came of it that the codec
was asked. An operation that crosses none logs nothing of that kind. `log_truthful` says so of every
run from the creation of a processor on, in which validation is logged as failed once at most. -/
namespace RecordPrivacy

/-! ### Records -/

namespace LogRecord
variable (typeName : String)

def started (boundary : Boundary) : LogRecord :=
  ⟨.debug, "boundary started", [("type", .text typeName), ("boundary", .text boundary.text)]⟩

def overridden (action : Action) : LogRecord :=
  ⟨.debug, "override applied", [("type", .text typeName), ("action", .text action.text)]⟩

/-- How a crossing has ended. -/
def closed (boundary : Boundary) (fields : Nat) : Except ProcessingError Record → LogRecord
  | .ok _ =>
    ⟨.debug, "boundary completed", [("type", .text typeName), ("boundary", .text boundary.text),
      ("fields", .text (toString fields)), ("duration_us", .duration)]⟩
  | .error e =>
    ⟨.warning, "boundary failed", [("type", .text typeName), ("boundary", .text boundary.text),
      ("duration_us", .duration), ("error", .text e.message)]⟩

/-- How the codec has answered. -/
def coded (boundary : Boundary) : Except CodecFault Bytes → LogRecord
  | .ok data =>
    ⟨.debug, "encoded", [("type", .text typeName), ("boundary", .text boundary.text),
      ("bytes", .text (toString data.length))]⟩
  | .error fault =>
    ⟨.warning, "encode failed", [("type", .text typeName), ("boundary", .text boundary.text),
      ("error", .text fault.message)]⟩

def invalid (e : ValidationError) : LogRecord :=
  ⟨.warning, "validation failed", [("type", .text typeName), ("error", .text e.message)]⟩

def unserializable (reason : String) : LogRecord :=
  ⟨.warning, "outbound value not serializable",
    [("type", .text typeName), ("error", .text reason)]⟩

/-- Whether the record is one of those that crossings log. -/
def ofCrossing (r : LogRecord) : Bool :=
  ["boundary started", "override applied", "boundary completed", "boundary failed", "encoded",
    "encode failed"].contains r.message

def ofValidation (r : LogRecord) : Bool :=
  r.message = "validation failed"

end LogRecord

namespace Processor
variable (p : Processor)

/-- What validation logs where it is asked for: that it fails, the first time. -/
def askedLog : List LogRecord :=
  match p.validation with
  | some _ => []
  | none =>
    match p.outcome with
    | .ok () => []
    | .error e => [.invalid p.typeName e]

/-- What is logged of the codec after a crossing: its answer, if it was asked. -/
def codedLog (boundary : Boundary) : Except ProcessingError Record → List LogRecord
  | .error _ => []
  | .ok crossed =>
    (p.codec.map fun codec => .coded p.typeName boundary (codec.encode crossed)).toList

end Processor

/-- The log of a session, under the name of its type. -/
def Work.log (w : Work) : List LogRecord :=
  w.events.map (Event.recordFor w.processor.typeName)

/-- What the operation logs. -/
def Operation.log (op : Operation) (w : Work) : List LogRecord :=
  (op.reports w).map (Event.recordFor w.processor.typeName)

namespace Operation

/-- What it logs after the crossing. -/
def codaLog (p : Processor) (result : Except ProcessingError Record) : Operation → List LogRecord
  | .write _ => p.codedLog .store result
  | .encode _ => p.codedLog .send result
  | .loggable _ => ((p.unserializable? result).map (.unserializable p.typeName)).toList
  | _ => []

end Operation

/-! ### One operation -/

namespace Operation
variable {op : Operation} {w : Work}

theorem askedLog_eq (p : Processor) :
    (Session.askedEvents p).map (Event.recordFor p.typeName) = p.askedLog := by
  rw [Session.askedEvents, Processor.askedLog]
  cases p.validation with
  | some outcome => rfl
  | none =>
    cases p.outcome with
    | ok u => rfl
    | error e => rfl

theorem codedLog_eq (p : Processor) (boundary : Boundary) (result : Except ProcessingError Record) :
    (p.codings boundary result).map (Event.recordFor p.typeName) = p.codedLog boundary result := by
  cases result with
  | error e => rfl
  | ok crossed =>
    rw [Processor.codings, Processor.codedLog]
    cases p.codec with
    | none => rfl
    | some codec =>
      simp only [Option.map_some, Option.toList_some, Codec.coding, List.map_cons, List.map_nil]
      cases codec.encode crossed <;> rfl

theorem codaLog_eq (p : Processor) (result : Except ProcessingError Record) (op : Operation) :
    (op.coda p result).map (Event.recordFor p.typeName) = op.codaLog p result := by
  cases op with
  | write record => exact codedLog_eq p .store result
  | encode record => exact codedLog_eq p .send result
  | loggable record =>
    rw [coda, codaLog]
    cases p.unserializable? result <;> rfl
  | _ => rfl

theorem log_crossing {boundary : Boundary} {record : Record}
    (h : op.crossing? w.processor = some (boundary, record)) :
    op.log w = .started w.processor.typeName boundary :: (w.processor.askedLog ++
      ((overridden (Session.turnsAt w boundary record)).map
          (.overridden w.processor.typeName) ++
        .closed w.processor.typeName boundary
            ((Session.turnsAt w boundary record).map Turn.fields).sum
            (Session.cross boundary record w).1 ::
          op.codaLog w.processor (Session.cross boundary record w).1)) := by
  have hclosed : ∀ (fields : Nat) (result : Except ProcessingError Record),
      (Session.closingEvent boundary fields result).recordFor w.processor.typeName =
        .closed w.processor.typeName boundary fields result := by
    intro fields result
    cases result <;> rfl
  rw [log, reports_turns h, List.map_cons, List.map_append, List.map_append, List.map_cons,
    askedLog_eq, codaLog_eq, hclosed, List.map_map]
  rfl

/-- What crosses no boundary logs nothing of a crossing. -/
theorem log_uncrossed (h : op.crossing? w.processor = none) :
    ∀ r ∈ op.log w, r.ofCrossing = false := by
  have hmap : ∀ (events : List Event), (op.run w).2.events = w.events ++ events →
      (∀ event ∈ events, (event.recordFor w.processor.typeName).ofCrossing = false) →
      ∀ r ∈ op.log w, r.ofCrossing = false := by
    intro events hevents hall
    rw [log, reports_eq hevents]
    exact List.forall_mem_map.mpr hall
  have hinbound : ∀ boundary data, w.processor.decoded? data = none →
      ∃ events, (Session.inbound boundary data w).2.events = w.events ++ events ∧
        ∀ event ∈ events, (event.recordFor w.processor.typeName).ofCrossing = false := by
    intro boundary data hdecoded
    rw [Session.inbound_apply, Session.unmarshal_apply]
    cases hcodec : w.processor.codec with
    | none => exact ⟨[], (List.append_nil _).symm, by simp⟩
    | some codec =>
      cases hdecode : codec.decode data w.processor.type.empty with
      | error fault =>
        refine ⟨[.decodeFailed data.length fault], ?_, by simp [Event.recordFor, Event.record,
          Event.hasType, LogRecord.ofCrossing]⟩
        simp only [hdecode, Session.report_events, Work.calling_events]
      | ok record => simp [Processor.decoded?, hcodec, hdecode, Except.toOption] at hdecoded
  cases op with
  | setEncryptor algorithm encryptor =>
    exact hmap [.registered .encryptor algorithm.text] (Session.report_events _ _) (by simp; rfl)
  | setHasher algorithm hasher =>
    exact hmap [.registered .hasher algorithm.text] (Session.report_events _ _) (by simp; rfl)
  | setMasker format masker =>
    exact hmap [.registered .masker format.text] (Session.report_events _ _) (by simp; rfl)
  | setKey algorithm key =>
    cases hkey : Encryptor.ofKey algorithm key with
    | error e =>
      refine hmap [] ?_ (by simp)
      rw [run, State.bind_apply, Session.setKey_apply, hkey, List.append_nil]
      rfl
    | ok encryptor =>
      refine hmap [.registered .encryptor algorithm.text] ?_ (by simp; rfl)
      rw [run, State.bind_apply, Session.setKey_apply, hkey]
      exact Session.report_events _ _
  | setCodec codec =>
    exact hmap [.codecAttached codec.contentType] (Session.report_events _ _) (by simp; rfl)
  | validate =>
    refine hmap _ (Session.validate_events w) fun event hmem => ?_
    obtain ⟨e, -, rfl⟩ := Session.mem_askedEvents hmem
    rfl
  | decode data =>
    obtain ⟨events, hevents, hall⟩ := hinbound .receive data (Option.map_eq_none_iff.mp h)
    exact hmap events hevents hall
  | read data =>
    obtain ⟨events, hevents, hall⟩ := hinbound .load data (Option.map_eq_none_iff.mp h)
    exact hmap events hevents hall
  | cross _ _ => cases h
  | write _ => cases h
  | encode _ => cases h
  | loggable _ => cases h

theorem log_validate : validate.log w = w.processor.askedLog := by
  rw [log, reports_validate, askedLog_eq]

theorem countP_codaLog (p : Processor) (result : Except ProcessingError Record) :
    (op.codaLog p result).countP LogRecord.ofValidation = 0 := by
  have hcoded : ∀ boundary, (p.codedLog boundary result).countP LogRecord.ofValidation = 0 := by
    intro boundary
    cases result with
    | error e => rfl
    | ok crossed =>
      rw [Processor.codedLog]
      cases p.codec with
      | none => rfl
      | some codec => cases h : codec.encode crossed <;> simp [h] <;> rfl
  cases op with
  | write record => exact hcoded .store
  | encode record => exact hcoded .send
  | loggable record =>
    rw [codaLog]
    cases p.unserializable? result <;> rfl
  | _ => rfl

/-- The failure of validation is logged by an operation that has asked for its outcome, and by the
first only. -/
theorem validation_logged (op : Operation) (w : Work) :
    (op.log w).countP LogRecord.ofValidation + w.processor.validation.isSome.toNat ≤
      (op.run w).2.processor.validation.isSome.toNat := by
  have hasked : w.processor.askedLog.countP LogRecord.ofValidation +
      w.processor.validation.isSome.toNat ≤ 1 := by
    rw [Processor.askedLog]
    cases w.processor.validation with
    | some outcome => exact Nat.le_refl 1
    | none =>
      cases w.processor.outcome with
      | ok u => exact Nat.zero_le 1
      | error e => exact Nat.le_refl 1
  rw [op.run_processor, effect]
  cases hasks : op.asks w.processor with
  | false =>
    have hsilent : (op.log w).countP LogRecord.ofValidation = 0 := by
      rw [log, List.countP_map, List.countP_eq_zero]
      intro event hmem
      have hnone := reports_unasked hasks event hmem
      cases event <;> first | exact Bool.false_ne_true | cases hnone
    rw [hsilent, Nat.zero_add]
    exact Nat.le_refl _
  | true =>
    refine Nat.le_trans ?_ hasked
    rcases asks_iff.mp hasks with rfl | ⟨boundary, record, hcrossing⟩
    · simp only [log_validate, Nat.le_refl]
    · have hoverridden : ∀ actions : List Action,
          (actions.map (LogRecord.overridden w.processor.typeName)).countP
            LogRecord.ofValidation = 0 := by
        intro actions
        rw [List.countP_map, List.countP_eq_zero]
        exact fun action _ => Bool.false_ne_true
      have hclosed : ∀ (fields : Nat) (result : Except ProcessingError Record),
          (LogRecord.closed w.processor.typeName boundary fields result).ofValidation = false := by
        intro fields result
        cases result <;> rfl
      rw [log_crossing hcrossing, List.countP_cons_of_neg Bool.false_ne_true, List.countP_append,
        List.countP_append, hoverridden, List.countP_cons_of_neg (by simp [hclosed]),
        countP_codaLog]
      exact Nat.le_refl _

end Operation

/-! ### Runs -/

namespace Work

/-- An operation adds its records to the log. -/
theorem log_run (w : Work) (op : Operation) : (op.run w).2.log = w.log ++ op.log w := by
  have hname : (op.run w).2.processor.typeName = w.processor.typeName := by
    rw [op.run_processor]
    rfl
  rw [log, hname, op.run_events, List.map_append]
  rfl

/-- In a run validation is logged to fail once at most. -/
theorem validation_logged_once {w : Work} (ops : List Operation)
    (h : w.log.countP LogRecord.ofValidation ≤ w.processor.validation.isSome.toNat) :
    (w.after ops).log.countP LogRecord.ofValidation ≤
      (w.after ops).processor.validation.isSome.toNat := by
  induction ops generalizing w with
  | nil => exact h
  | cons op rest ih =>
    have hstep := op.validation_logged w
    refine ih ?_
    rw [log_run, List.countP_append]
    omega

/-- What is owed by the log of a processor over any run from `w`. -/
structure LogsTruly (w : Work) : Prop where
  /-- An operation adds its records to the log, -/
  grows : ∀ ops op, (w.after (ops ++ [op])).log = (w.after ops).log ++ Operation.log op (w.after ops)
  /-- one that crosses a boundary answers by the result of the crossing, and logs its start, a
  validation that fails for the first time, the overrides that ran in their turns, its end with the
  fields of all turns, and what came of it afterwards; -/
  crossing : ∀ ops (op : Operation) boundary record,
    op.crossing? (w.after ops).processor = some (boundary, record) →
    (op.run (w.after ops)).1 = op.answering (w.after ops).processor
        (Session.cross boundary record (w.after ops)).1 ∧
      op.log (w.after ops) = .started w.processor.typeName boundary ::
        ((w.after ops).processor.askedLog ++
          ((overridden (Session.turnsAt (w.after ops) boundary record)).map
              (.overridden w.processor.typeName) ++
            .closed w.processor.typeName boundary
                ((Session.turnsAt (w.after ops) boundary record).map Turn.fields).sum
                (Session.cross boundary record (w.after ops)).1 ::
              op.codaLog (w.after ops).processor
                (Session.cross boundary record (w.after ops)).1))
  /-- on the way out the codec is called for what has crossed, once, and for nothing else; -/
  asked : ∀ ops boundary record, (Session.outbound boundary record (w.after ops)).2.calls =
    (w.after ops).calls ++
      (w.after ops).processor.encodings (Session.cross boundary record (w.after ops)).1
  /-- one that crosses none adds no such record. -/
  uncrossed : ∀ ops (op : Operation), op.crossing? (w.after ops).processor = none →
    ∀ r ∈ op.log (w.after ops), r.ofCrossing = false
  once : ∀ ops, (w.after ops).log.countP LogRecord.ofValidation ≤ 1

/-- **The log tells the truth.** From the creation of a processor on, every crossing is logged from
its start to its end: that it was completed just if it succeeded, with the number of plans that led
to a leaf of the record as it was in the turn of their action, and otherwise that it failed, with
the error that is returned; between the two, the overrides that ran, in order. The answer of the
codec follows where it was asked, and validation is logged to fail once at most. -/
theorem log_truthful {w : Work}
    (opened : w.events = [Processor.creation w.processor.type (.ok w.processor)]) :
    w.LogsTruly := by
  have hname : ∀ ops, (w.after ops).processor.typeName = w.processor.typeName := by
    intro ops
    rw [Processor.typeName, (w.after_fixed ops).2]
    rfl
  have hsilent : w.log.countP LogRecord.ofValidation = 0 := by
    rw [log, opened]
    rfl
  refine ⟨fun ops op => by rw [after_append]; exact log_run _ op,
    fun ops op boundary record h => ⟨(Operation.run_coda h).1, ?_⟩,
    fun _ _ => Session.outbound_calls, fun ops op h => Operation.log_uncrossed h,
    fun ops => Nat.le_trans (validation_logged_once ops (hsilent ▸ Nat.zero_le _)) (Bool.toNat_le _)⟩
  rw [Operation.log_crossing h, hname]

open Sample in
/-- A letter is encoded for sending in an office that stars senders its own way, with a codec that is
out of order. -/
theorem starredOffice_logged :
    (Operation.encode (letter "Ada" "Eve" [7])).log
        (Work.after { starredOffice with
            history := [.reported (Processor.creation starredOffice.processor.type
              (.ok starredOffice.processor))] } [.setCodec .refusing]) =
      [.started "Letter" .send, .overridden "Letter" .mask,
        .closed "Letter" .send 2 (.ok (letter "-" "Eve" (Utf8.encode "+"))),
        .coded "Letter" .send (.error (.other "encoder offline"))] := by
  have h := log_truthful (w := { starredOffice with
    history := [.reported (Processor.creation starredOffice.processor.type
      (.ok starredOffice.processor))] }) rfl
  rw [(h.crossing [.setCodec .refusing] (.encode (letter "Ada" "Eve" [7])) .send
    (letter "Ada" "Eve" [7]) rfl).2]
  rfl

end Work

end RecordPrivacy
