import RecordPrivacy.Proofs.Processor.Coding

/-! Events of a crossing.

A crossing reports that it starts, what validation reports, the overrides that ran, and how it ends
(`cross_events`). What happens with the codec before or after it reports nothing that tells of the
outcome of validation. -/
namespace RecordPrivacy

/-! ### What is seen of validation -/

/-- The outcome of validation that the error tells of. A codec may fail before anyone asks. -/
def ProcessingError.outcome? : ProcessingError → Option (Except ValidationError Unit)
  | .validation error => some (.error error)
  | .transform _ => some (.ok ())
  | .codec _ => none

def Event.outcome? : Event → Option (Except ValidationError Unit)
  | .validationFailed error => some (.error error)
  | .completed _ _ => some (.ok ())
  | .failed _ error => error.outcome?
  | _ => none

/-- Nothing has happened but events that tell nothing of validation, and calls of the codec. -/
structure Work.Notes (w w' : Work) : Prop where
  processor : w'.processor = w.processor
  entropy : w'.entropy = w.entropy
  events : ∃ tail, w'.events = w.events ++ tail ∧ ∀ event ∈ tail, event.outcome? = none

theorem Work.UpToCalls.notes {w w' : Work} (h : w.UpToCalls w') : w.Notes w' :=
  ⟨h.processor, h.entropy, [], by rw [h.events, List.append_nil], by simp⟩

theorem Work.Notes.refl (w : Work) : w.Notes w :=
  (UpToCalls.refl w).notes

/-- The last event of a crossing with the result. -/
inductive Event.Closes (boundary : Boundary) : Except ProcessingError Record → Event → Prop
  | completed (record : Record) (fields : Nat) : Closes boundary (.ok record)
      (.completed boundary fields)
  | failed (error : ProcessingError) : Closes boundary (.error error) (.failed boundary error)

/-- The record that the codec decodes, if there is a codec and it decodes one. -/
def Processor.decoded? (p : Processor) (data : Bytes) : Option Record :=
  p.codec.bind fun codec => (codec.decode data p.type.empty).toOption

namespace Session
open State
variable (w : Work)

/-- What validation reports where it is asked for. -/
def askedEvents (p : Processor) : List Event :=
  match p.validation with
  | some _ => []
  | none => validationEvents p.outcome

theorem mem_askedEvents {p : Processor} {event : Event} (h : event ∈ askedEvents p) :
    ∃ e, p.outcome = .error e ∧ event = .validationFailed e := by
  rw [askedEvents] at h
  cases hkept : p.validation with
  | some outcome => simp [hkept] at h
  | none =>
    rw [hkept] at h
    cases ho : p.outcome with
    | ok u => simp [ho, validationEvents] at h
    | error e => exact ⟨e, rfl, by simpa [ho, validationEvents] using h⟩

theorem report_events (event : Event) : (report event w).2.events = w.events ++ [event] := by
  simp [report_apply, Work.events]

theorem validate_history :
    (validate w).2.history = w.history ++ (askedEvents w.processor).map .reported := by
  cases h : w.processor.validation with
  | some outcome =>
    rw [validate_kept w h, askedEvents, h]
    exact (List.append_nil _).symm
  | none => rw [validate_fresh w h, askedEvents, h]

theorem validate_events : (validate w).2.events = w.events ++ askedEvents w.processor := by
  simp [Work.events, validate_history]

/-- Only an override that ran is reported. -/
theorem perform_events (action : Action) (record : Record) :
    ∃ ran : List Action, ran.Sublist [action] ∧
      (∀ a ∈ ran, a ∈ w.processor.type.overrides) ∧
      (perform action record w).2.events = w.events ++ ran.map .overridden := by
  by_cases h : action ∈ w.processor.type.overrides
  · rw [perform_override w record h]
    rcases w.processor.type.runOverride action w.processor.capabilities record w.entropy with
      ⟨⟨mid, ran⟩, supply⟩
    cases ran with
    | none => exact ⟨[], List.nil_sublist _, by simp, (List.append_nil _).symm⟩
    | some result => exact ⟨[action], .refl _, by simpa using h, by simp [Work.events]⟩
  · rw [perform_plans w record h]
    exact ⟨[], List.nil_sublist _, by simp, (List.append_nil _).symm⟩

theorem performAll_events (actions : List Action) (record : Record) :
    ∃ ran : List Action, ran.Sublist actions ∧
      (∀ a ∈ ran, a ∈ w.processor.type.overrides) ∧
      (performAll actions record w).2.events = w.events ++ ran.map .overridden := by
  induction actions generalizing record w with
  | nil => exact ⟨[], .slnil, by simp, (List.append_nil _).symm⟩
  | cons action rest ih =>
    have hkept := perform_processor w action record
    obtain ⟨ran, hsub, hran, hevents⟩ := perform_events w action record
    rw [performAll_cons]
    rcases hp : perform action record w with ⟨⟨mid, outcome⟩, w₁⟩
    rw [hp] at hevents hkept
    cases outcome with
    | error e => exact ⟨ran, hsub.trans (by simp), hran, hevents⟩
    | ok n =>
      obtain ⟨later, hsub', hlater, hrest⟩ := ih w₁ mid
      rw [show w₁.processor = w.processor from hkept] at hlater
      refine ⟨ran ++ later, hsub.append hsub', fun a ha => ?_, ?_⟩
      · rcases List.mem_append.mp ha with ha | ha
        · exact hran a ha
        · exact hlater a ha
      · rw [List.map_append, ← List.append_assoc, ← hevents]
        exact hrest

/-- A crossing reports that it starts, what validation reports, the overrides that ran, and how it
ends. -/
theorem cross_events (boundary : Boundary) (record : Record) :
    ∃ (ran : List Action) (closing : Event), ran.Sublist boundary.actions ∧
      (∀ action ∈ ran, action ∈ w.processor.type.overrides) ∧
      closing.Closes boundary (cross boundary record w).1 ∧
      (cross boundary record w).2.events = w.events ++
        .started boundary :: (askedEvents w.processor ++ (ran.map .overridden ++ [closing])) := by
  have hentered : (entered boundary w).events =
      w.events ++ .started boundary :: askedEvents w.processor := by
    rw [entered, validate_events, report_events, List.append_assoc]
    rfl
  rw [cross_apply]
  cases w.processor.outcome with
  | error e =>
    refine ⟨[], .failed boundary (.validation e), List.nil_sublist _, by simp, .failed _, ?_⟩
    rw [report_events, hentered, List.append_assoc]
    rfl
  | ok u =>
    obtain ⟨ran, hsub, hran, hevents⟩ :=
      performAll_events (entered boundary w) boundary.actions record
    rw [entered_processor] at hran
    rcases hp : performAll boundary.actions record (entered boundary w) with ⟨⟨result, outcome⟩, w₁⟩
    have hclosed : ∀ closing : Event, (report closing w₁).2.events = w.events ++
        .started boundary :: (askedEvents w.processor ++ (ran.map .overridden ++ [closing])) := by
      intro closing
      rw [hp, hentered] at hevents
      rw [report_events, show w₁.events = _ from hevents]
      simp
    cases outcome with
    | error e => exact ⟨ran, _, hsub, hran, .failed _, hclosed _⟩
    | ok n => exact ⟨ran, _, hsub, hran, .completed _ _, hclosed _⟩

/-! ### With the codec -/

theorem notes_report {event : Event} (h : event.outcome? = none) : w.Notes (report event w).2 :=
  ⟨rfl, rfl, [event], report_events w event, by simpa using h⟩

theorem notes_calling_report {event : Event} (h : event.outcome? = none) (call : CodecCall) :
    w.Notes (report event (w.calling call)).2 :=
  ⟨rfl, rfl, [event], by rw [report_events, Work.calling_events], by simpa using h⟩

theorem marshal_notes (boundary : Boundary) (record : Record) :
    w.Notes (marshal boundary record w).2 := by
  rw [marshal_apply]
  cases w.processor.codec with
  | none => exact .refl w
  | some codec =>
    simp only
    cases codec.encode record with
    | ok data => exact notes_calling_report w rfl _
    | error fault => exact notes_calling_report w rfl _

/-- What is decoded comes in as the record does, but for the call of the codec. -/
theorem inbound_decoded (boundary : Boundary) {data : Bytes} {record : Record}
    (h : w.processor.decoded? data = some record) :
    (inbound boundary data w).1 = (cross boundary record w).1 ∧
      (cross boundary record w).2.UpToCalls (inbound boundary data w).2 := by
  obtain ⟨codec, hcodec, hdecode⟩ := Option.bind_eq_some_iff.mp h
  cases hd : codec.decode data w.processor.type.empty with
  | error fault =>
    rw [hd] at hdecode
    cases hdecode
  | ok other =>
    rw [hd] at hdecode
    cases hdecode
    rw [inbound_of_decode w hcodec hd]
    exact (cross_uncoded boundary record).calling _

/-- Nothing crosses a boundary that was not decoded. -/
theorem inbound_undecoded (boundary : Boundary) {data : Bytes}
    (h : w.processor.decoded? data = none) :
    (∃ e, (inbound boundary data w).1 = .error (.codec e)) ∧
      w.Notes (inbound boundary data w).2 := by
  rw [inbound_apply, unmarshal_apply]
  cases hc : w.processor.codec with
  | none => exact ⟨⟨_, rfl⟩, .refl w⟩
  | some codec =>
    cases hd : codec.decode data w.processor.type.empty with
    | error fault =>
      simp only [hd]
      exact ⟨⟨_, rfl⟩, notes_calling_report w rfl _⟩
    | ok record => simp [Processor.decoded?, hc, hd, Except.toOption] at h

end Session

end RecordPrivacy
