import RecordPrivacy.Proofs.Processor.Session

/-! Sessions with a codec.

A crossing has nothing to do with the codec (`cross_uncoded`): it comes to the same with another
codec, and with another past, and adds nothing but reports. What comes in is decoded and then crosses
(`inbound_ok`), what goes out has crossed before it is encoded (`outbound_work`, `of_outbound_ok`).
The codec changes nothing of the processor. -/
namespace RecordPrivacy

/-! ### Calls and reports -/

/-- The codec was called once more. -/
def Work.calling (w : Work) (call : CodecCall) : Work :=
  { w with history := w.history ++ [.called call] }

theorem Work.calling_events (w : Work) (call : CodecCall) : (w.calling call).events = w.events := by
  simp [calling, events, List.filterMap_cons]

theorem Work.calling_calls (w : Work) (call : CodecCall) :
    (w.calling call).calls = w.calls ++ [call] := by
  simp [calling, calls]

/-- The two differ at most in what the codec was called for. -/
structure Work.UpToCalls (w w' : Work) : Prop where
  processor : w'.processor = w.processor
  entropy : w'.entropy = w.entropy
  events : w'.events = w.events

theorem Work.UpToCalls.refl (w : Work) : w.UpToCalls w :=
  ⟨rfl, rfl, rfl⟩

/-- The codec, if there is one, is called to decode the bytes into the empty record. -/
def Processor.decodings (p : Processor) (data : Bytes) : List CodecCall :=
  (p.codec.map fun _ => .decode data p.type.empty).toList

/-- The codec, if there is one, is called to encode what has crossed, if anything has. -/
def Processor.encodings (p : Processor) : Except ProcessingError Record → List CodecCall
  | .error _ => []
  | .ok crossed => (p.codec.map fun _ => .encode crossed).toList

/-- What is reported of a record that the codec is asked to encode. -/
def Codec.coding (codec : Codec) (boundary : Boundary) (record : Record) : Event :=
  match codec.encode record with
  | .ok data => .encoded boundary data.length
  | .error fault => .encodeFailed boundary fault

/-- What is reported of the codec when a crossing has come to its end. -/
def Processor.codings (p : Processor) (boundary : Boundary) :
    Except ProcessingError Record → List Event
  | .error _ => []
  | .ok crossed => (p.codec.map fun codec => codec.coding boundary crossed).toList

/-- What is seen after a crossing has come to its end: the codec is called, and its answer is
reported. -/
def Processor.coded (p : Processor) (boundary : Boundary)
    (result : Except ProcessingError Record) : List Occurrence :=
  (p.encodings result).map .called ++ (p.codings boundary result).map .reported

/-- The session, when there was more to be seen of it. -/
def Work.seen (w : Work) (later : List Occurrence) : Work :=
  { w with history := w.history ++ later }

theorem Work.seen_coded_calls (w : Work) (p : Processor) (boundary : Boundary)
    (result : Except ProcessingError Record) :
    (w.seen (p.coded boundary result)).calls = w.calls ++ p.encodings result := by
  simp [seen, calls, Processor.coded]

theorem Work.seen_coded_events (w : Work) (p : Processor) (boundary : Boundary)
    (result : Except ProcessingError Record) :
    (w.seen (p.coded boundary result)).events = w.events ++ p.codings boundary result := by
  simp [seen, events, Processor.coded]

/-! ### Without the codec -/

def Work.withCodec (w : Work) (codec : Codec) : Work :=
  { w with processor.codec := some codec }

/-- The same with another codec, or none, and with another past. -/
def Work.refitted (w : Work) (codec : Option Codec) (earlier : List Occurrence) : Work :=
  { w with processor.codec := codec, history := earlier }

/-- What the session does from `w` on has nothing to do with the codec: whatever the codec, and
whatever was done before, it comes to the same and adds nothing but reports. -/
def Session.Uncoded {α : Type} (session : Session α) (w : Work) : Prop :=
  ∃ (a : α) (w' : Work) (events : List Event), ∀ codec earlier,
    session (w.refitted codec earlier) =
      (a, w'.refitted codec (earlier ++ events.map .reported))

namespace Session
open State
variable {α β : Type} {w : Work}

namespace Uncoded
variable {session : Session α} {f : α → Session β}

/-- What the session comes to from `w` itself, and elsewhere. -/
theorem here (h : session.Uncoded w) : ∃ (a : α) (w' : Work) (events : List Event),
    session w = (a, w'.refitted w.processor.codec (w.history ++ events.map .reported)) ∧
      ∀ codec earlier, session (w.refitted codec earlier) =
        (a, w'.refitted codec (earlier ++ events.map .reported)) := by
  obtain ⟨a, w', events, hsession⟩ := h
  exact ⟨a, w', events, hsession w.processor.codec w.history, hsession⟩

theorem bind (first : session.Uncoded w) (second : (f (session w).1).Uncoded (session w).2) :
    (session >>= f).Uncoded w := by
  obtain ⟨a, w₁, events, hhere, hfirst⟩ := first.here
  rw [hhere] at second
  obtain ⟨b, w₂, events', hsecond⟩ := second
  refine ⟨b, w₂, events ++ events', fun codec earlier => ?_⟩
  rw [bind_apply, hfirst, List.map_append, ← List.append_assoc]
  exact hsecond codec (earlier ++ events.map .reported)

theorem calls (h : session.Uncoded w) : (session w).2.calls = w.calls := by
  obtain ⟨a, w₁, events, hhere, -⟩ := h.here
  simp [hhere, Work.calls, Work.refitted]

theorem withCodec (h : session.Uncoded w) (codec : Codec) :
    session (w.withCodec codec) = ((session w).1, (session w).2.withCodec codec) := by
  obtain ⟨a, w₁, events, hhere, hsession⟩ := h.here
  rw [hhere]
  exact hsession (some codec) w.history

/-- It makes no difference what the codec was called for before. -/
theorem calling (h : session.Uncoded w) (call : CodecCall) :
    (session (w.calling call)).1 = (session w).1 ∧
      (session w).2.UpToCalls (session (w.calling call)).2 := by
  obtain ⟨a, w₁, events, hhere, hsession⟩ := h.here
  have hcalling : session (w.calling call) = (a, w₁.refitted w.processor.codec
      (w.history ++ [.called call] ++ events.map .reported)) :=
    hsession w.processor.codec (w.history ++ [Occurrence.called call])
  rw [hhere, hcalling]
  refine ⟨rfl, rfl, rfl, ?_⟩
  simp [Work.events, Work.refitted, List.filterMap_cons]

end Uncoded

theorem pure_uncoded (a : α) : (pure a : Session α).Uncoded w :=
  ⟨a, w, [], fun _ _ => by rw [List.map_nil, List.append_nil]; rfl⟩

theorem report_uncoded (event : Event) : (report event).Uncoded w :=
  ⟨(), w, [event], fun _ _ => rfl⟩

theorem draw_uncoded (drawn : Drawn α) : (draw drawn).Uncoded w :=
  ⟨(drawn w.entropy).1, { w with entropy := (drawn w.entropy).2 }, [], fun _ _ => by
    rw [List.map_nil, List.append_nil]
    rfl⟩

theorem validate_uncoded : validate.Uncoded w := by
  cases h : w.processor.validation with
  | some outcome =>
    refine ⟨outcome, w, [], fun codec earlier => ?_⟩
    rw [validate_kept (w.refitted codec earlier) h, List.map_nil, List.append_nil]
  | none =>
    refine ⟨w.processor.outcome, { w with processor := w.processor.settled },
      validationEvents w.processor.outcome, fun codec earlier => ?_⟩
    exact validate_fresh (w.refitted codec earlier) h

theorem perform_uncoded (action : Action) (record : Record) :
    (perform action record).Uncoded w := by
  by_cases listed : action ∈ w.processor.type.overrides
  · rcases hrun : w.processor.type.runOverride action w.processor.capabilities record w.entropy with
      ⟨⟨mid, ran⟩, supply⟩
    cases ran with
    | some result =>
      refine ⟨(mid, overrideResult w.processor.typeName action result), { w with entropy := supply },
        [.overridden action], fun codec earlier => ?_⟩
      rw [perform_override (w.refitted codec earlier) record listed]
      simp only [Work.refitted, hrun]
      rfl
    | none =>
      obtain ⟨a, w₁, events, hdraw⟩ := draw_uncoded (w := { w with entropy := supply })
        (traverse w.processor.capabilities action (w.processor.plans.forAction action) mid)
      refine ⟨a, w₁, events, fun codec earlier => ?_⟩
      rw [perform_override (w.refitted codec earlier) record listed]
      simp only [Work.refitted, hrun]
      exact hdraw codec earlier
  · obtain ⟨a, w₁, events, hdraw⟩ := draw_uncoded (w := w)
      (traverse w.processor.capabilities action (w.processor.plans.forAction action) record)
    refine ⟨a, w₁, events, fun codec earlier => ?_⟩
    rw [perform_plans (w.refitted codec earlier) record listed]
    exact hdraw codec earlier

theorem performAll_uncoded (actions : List Action) (record : Record) :
    (performAll actions record).Uncoded w := by
  induction actions generalizing record w with
  | nil => exact pure_uncoded _
  | cons action rest ih =>
    refine (perform_uncoded action record).bind ?_
    rcases perform action record w with ⟨⟨mid, outcome⟩, w₁⟩
    cases outcome with
    | error e => exact pure_uncoded _
    | ok n => exact (ih mid).bind (pure_uncoded _)

/-- A crossing does not look at the codec. -/
theorem cross_uncoded (boundary : Boundary) (record : Record) :
    (cross boundary record).Uncoded w := by
  refine (report_uncoded _).bind (validate_uncoded.bind ?_)
  cases (validate (report (.started boundary) w).2).1 with
  | error e => exact (report_uncoded _).bind (pure_uncoded _)
  | ok u =>
    refine (performAll_uncoded _ _).bind ?_
    rcases performAll boundary.actions record _ with ⟨⟨left, outcome⟩, w₁⟩
    cases outcome with
    | error e => exact (report_uncoded _).bind (pure_uncoded _)
    | ok n => exact (report_uncoded _).bind (pure_uncoded _)

/-! ### With the codec -/

variable (w)

theorem unmarshal_apply (data : Bytes) :
    unmarshal data w =
      match w.processor.codec with
      | none => (.error (.codec .notConfigured), w)
      | some codec =>
        let called := w.calling (.decode data w.processor.type.empty)
        match codec.decode data w.processor.type.empty with
        | .ok record => (.ok record, called)
        | .error fault =>
          (.error (.codec (.decode fault)), (report (.decodeFailed data.length fault) called).2) := by
  simp only [unmarshal, bind_apply, processor_apply]
  cases w.processor.codec with
  | none => rfl
  | some codec =>
    simp only [callDecode, bind_apply, pure_apply]
    cases codec.decode data w.processor.type.empty <;> rfl

theorem marshal_apply (boundary : Boundary) (record : Record) :
    marshal boundary record w =
      match w.processor.codec with
      | none => (.error (.codec .notConfigured), w)
      | some codec =>
        let called := w.calling (.encode record)
        match codec.encode record with
        | .ok data => (.ok data, (report (.encoded boundary data.length) called).2)
        | .error fault =>
          (.error (.codec (.encode fault)), (report (.encodeFailed boundary fault) called).2) := by
  simp only [marshal, bind_apply, processor_apply]
  cases w.processor.codec with
  | none => rfl
  | some codec =>
    simp only [callEncode, bind_apply, pure_apply]
    cases codec.encode record <;> rfl

theorem inbound_apply (boundary : Boundary) (data : Bytes) :
    inbound boundary data w =
      match unmarshal data w with
      | (.error e, w₁) => (.error e, w₁)
      | (.ok record, w₁) => cross boundary record w₁ := by
  rw [inbound, bind_apply]
  rcases unmarshal data w with ⟨outcome, w₁⟩
  cases outcome <;> rfl

theorem outbound_apply (boundary : Boundary) (record : Record) :
    outbound boundary record w =
      match cross boundary record w with
      | (.error e, w₁) => (.error e, w₁)
      | (.ok crossed, w₁) => marshal boundary crossed w₁ := by
  rw [outbound, bind_apply]
  rcases cross boundary record w with ⟨outcome, w₁⟩
  cases outcome <;> rfl

/-- Bytes that the codec decodes come in as the record does, once the codec was called. -/
theorem inbound_of_decode {boundary : Boundary} {codec : Codec} {data : Bytes} {record : Record}
    (hcodec : w.processor.codec = some codec)
    (hdecode : codec.decode data w.processor.type.empty = .ok record) :
    inbound boundary data w =
      cross boundary record (w.calling (.decode data w.processor.type.empty)) := by
  rw [inbound_apply, unmarshal_apply]
  simp only [hcodec, hdecode]

/-- Bytes come in that the codec decodes to a record which crosses the boundary. -/
theorem inbound_ok {boundary : Boundary} {data : Bytes} {record result : Record} {codec : Codec}
    (hcodec : w.processor.codec = some codec)
    (hdecode : codec.decode data w.processor.type.empty = .ok record)
    (hcross : (cross boundary record w).1 = .ok result) :
    (inbound boundary data w).1 = .ok result := by
  rw [inbound_of_decode w hcodec hdecode, ((cross_uncoded boundary record).calling _).1, hcross]

/-- The codec is called for the bytes and nothing else. -/
theorem unmarshal_calls (data : Bytes) :
    (unmarshal data w).2.calls = w.calls ++ w.processor.decodings data := by
  rw [unmarshal_apply, Processor.decodings]
  cases w.processor.codec with
  | none => simp
  | some codec =>
    simp only
    cases codec.decode data w.processor.type.empty with
    | ok record => exact Work.calling_calls w _
    | error fault => exact (report_uncoded _).calls.trans (Work.calling_calls w _)

/-- Encoding calls the codec for the record, reports its answer, and does nothing else. -/
theorem marshal_work (boundary : Boundary) (record : Record) :
    (marshal boundary record w).2 = w.seen (w.processor.coded boundary (.ok record)) := by
  rw [marshal_apply, Processor.coded, Processor.encodings, Processor.codings]
  cases w.processor.codec with
  | none => simp [Work.seen]
  | some codec =>
    simp only [Option.map_some, Option.toList_some, Codec.coding]
    cases codec.encode record with
    | ok data => simp [Work.seen, Work.calling, report_apply]
    | error fault => simp [Work.seen, Work.calling, report_apply]

/-- What becomes of a record that is encoded is a matter of the codec. -/
theorem marshal_result {w w' : Work} (h : w'.processor.codec = w.processor.codec)
    (boundary : Boundary) (record : Record) :
    (marshal boundary record w').1 = (marshal boundary record w).1 := by
  rw [marshal_apply, marshal_apply, h]
  cases w.processor.codec with
  | none => rfl
  | some codec =>
    simp only
    cases codec.encode record <;> rfl

theorem cross_codec (boundary : Boundary) (record : Record) :
    (cross boundary record w).2.processor.codec = w.processor.codec := by
  rw [cross_processor]
  rfl

/-- What goes out is what has crossed, encoded. -/
theorem outbound_result (boundary : Boundary) (record : Record) :
    (outbound boundary record w).1 =
      match (cross boundary record w).1 with
      | .error e => .error e
      | .ok crossed => (marshal boundary crossed w).1 := by
  have hcodec := cross_codec w boundary record
  rw [outbound_apply]
  rcases hc : cross boundary record w with ⟨outcome, w₁⟩
  rw [hc] at hcodec
  cases outcome with
  | error e => rfl
  | ok crossed => exact marshal_result hcodec boundary crossed

/-- Bytes go out that encode what has crossed the boundary. -/
theorem of_outbound_ok {boundary : Boundary} {record : Record} {data : Bytes} {codec : Codec}
    (hcodec : w.processor.codec = some codec)
    (h : (outbound boundary record w).1 = .ok data) :
    ∃ crossed, (cross boundary record w).1 = .ok crossed ∧ codec.encode crossed = .ok data := by
  rw [outbound_result] at h
  cases hcross : (cross boundary record w).1 with
  | error e =>
    rw [hcross] at h
    cases h
  | ok crossed =>
    refine ⟨crossed, rfl, ?_⟩
    simp only [hcross, marshal_apply, hcodec] at h
    cases he : codec.encode crossed with
    | error fault =>
      rw [he] at h
      cases h
    | ok bytes =>
      rw [he] at h
      cases h
      rfl

/-- What goes out fails in a transform only if the crossing does. -/
theorem cross_of_outbound_error {boundary : Boundary} {record : Record} {e : TransformError}
    (h : (outbound boundary record w).1 = .error (.transform e)) :
    (cross boundary record w).1 = .error (.transform e) := by
  rw [outbound_result] at h
  cases hcross : (cross boundary record w).1 with
  | error x =>
    rw [hcross] at h
    cases h
    rfl
  | ok crossed =>
    simp only [hcross, marshal_apply] at h
    cases hcodec : w.processor.codec with
    | none =>
      rw [hcodec] at h
      cases h
    | some codec =>
      cases hencode : codec.encode crossed with
      | error fault =>
        simp only [hcodec, hencode] at h
        cases h
      | ok data =>
        simp only [hcodec, hencode] at h
        cases h

/-- What goes out has crossed, and then was encoded if it has. -/
theorem outbound_work (boundary : Boundary) (record : Record) :
    (outbound boundary record w).2 = (cross boundary record w).2.seen
      (w.processor.coded boundary (cross boundary record w).1) := by
  have hcodec := cross_codec w boundary record
  rw [outbound_apply]
  rcases hc : cross boundary record w with ⟨outcome, w₁⟩
  rw [hc] at hcodec
  cases outcome with
  | error e => simp [Work.seen, Processor.coded, Processor.encodings, Processor.codings]
  | ok crossed =>
    simp only [marshal_work, Processor.coded, Processor.encodings, Processor.codings]
    rw [show w₁.processor.codec = w.processor.codec from hcodec]

theorem outbound_processor (boundary : Boundary) (record : Record) :
    (outbound boundary record w).2.processor = w.processor.settled := by
  rw [outbound_work]
  exact cross_processor w boundary record

end Session

end RecordPrivacy
