import RecordPrivacy.Proofs.Processor.Runs
import RecordPrivacy.Sample.Codecs
import RecordPrivacy.Sample.Letters

/-! What the codec gets to see.

What goes out is encoded after it has crossed: the codec is called for the record that has crossed,
once, and for no other one (`Session.outbound_calls`). What comes in crosses after it was decoded
(`Session.inbound_calls`). In a run there are no other calls (`Work.calls_after`). Another codec
that answers these calls alike makes no difference, since a crossing does not look at the codec
(`Session.cross_uncoded`). Hence the order of the errors: there is one constructor of `Outgoing` and
of `Incoming` for each way in which it can end, and each says that what comes before has gone
well. -/
namespace RecordPrivacy

/-- The two codecs answer the call in the same way. -/
def CodecCall.Alike (codec codec' : Codec) : CodecCall → Prop
  | .encode record => codec'.encode record = codec.encode record
  | .decode data into => codec'.decode data into = codec.decode data into

/-! ### Calls on the way -/

namespace Session
variable {w : Work} {codec codec' : Codec} {boundary : Boundary}

/-- The crossing itself makes no call; what it hands on decides about the only one. -/
theorem outbound_calls (record : Record) :
    (outbound boundary record w).2.calls =
      w.calls ++ w.processor.encodings (cross boundary record w).1 := by
  rw [outbound_work, Work.seen_coded_calls, (cross_uncoded boundary record).calls]

theorem inbound_calls (data : Bytes) :
    (inbound boundary data w).2.calls = w.calls ++ w.processor.decodings data := by
  rw [inbound_apply, ← unmarshal_calls]
  rcases unmarshal data w with ⟨outcome, w₁⟩
  cases outcome with
  | error e => rfl
  | ok record => exact (cross_uncoded boundary record).calls

/-! ### Codecs exchanged -/

/-- What goes out is up to the answer to the call for what has crossed. -/
theorem outbound_withCodec {record : Record} (hcodec : w.processor.codec = some codec)
    (halike : ∀ call ∈ w.processor.encodings (cross boundary record w).1, call.Alike codec codec') :
    outbound boundary record (w.withCodec codec') =
      ((outbound boundary record w).1, (outbound boundary record w).2.withCodec codec') := by
  have hkept := cross_codec w boundary record
  rw [outbound_apply, outbound_apply, (cross_uncoded boundary record).withCodec]
  rcases hc : cross boundary record w with ⟨outcome, w₁⟩
  rw [hc] at hkept halike
  cases outcome with
  | error e => rfl
  | ok crossed =>
    have hencode : codec'.encode crossed = codec.encode crossed :=
      halike (.encode crossed) (by simp [Processor.encodings, hcodec])
    simp only [marshal_apply, show w₁.processor.codec = some codec from hkept.trans hcodec,
      Work.withCodec, hencode]
    cases codec.encode crossed <;> rfl

/-- What comes in is up to the answer to the call for the bytes. -/
theorem inbound_withCodec {data : Bytes} (hcodec : w.processor.codec = some codec)
    (halike : ∀ call ∈ w.processor.decodings data, call.Alike codec codec') :
    inbound boundary data (w.withCodec codec') =
      ((inbound boundary data w).1, (inbound boundary data w).2.withCodec codec') := by
  have hdecode : codec'.decode data w.processor.type.empty =
      codec.decode data w.processor.type.empty :=
    halike (.decode data w.processor.type.empty) (by simp [Processor.decodings, hcodec])
  have hcodec' : (w.withCodec codec').processor.codec = some codec' := rfl
  have htype : (w.withCodec codec').processor.type = w.processor.type := rfl
  rw [inbound_apply, inbound_apply, unmarshal_apply, unmarshal_apply, hcodec', hcodec, htype]
  simp only [hdecode]
  cases codec.decode data w.processor.type.empty with
  | ok record =>
    exact (cross_uncoded (w := w.calling (.decode data w.processor.type.empty)) boundary
      record).withCodec codec'
  | error fault => rfl

end Session

/-! ### The order of errors -/

/-- How a crossing ends: validation comes before the actions of the boundary. -/
inductive Crosses (w : Work) (boundary : Boundary) (record : Record) :
    Except ProcessingError Record → Prop
  | validation {e : ValidationError} : w.processor.outcome = .error e →
      Crosses w boundary record (.error (.validation e))
  | transform {e : TransformError} {left : Record} {w₁ : Work} : w.processor.outcome = .ok () →
      Session.performAll boundary.actions record (Session.entered boundary w) =
        ((left, .error e), w₁) →
      Crosses w boundary record (.error (.transform e))
  | crossed {crossed : Record} {n : Nat} {w₁ : Work} : w.processor.outcome = .ok () →
      Session.performAll boundary.actions record (Session.entered boundary w) =
        ((crossed, .ok n), w₁) →
      Crosses w boundary record (.ok crossed)

/-- How it ends that a record goes out: the crossing comes before the codec. -/
inductive Outgoing (w : Work) (boundary : Boundary) (record : Record) :
    Except ProcessingError Bytes → Prop
  | crossing {e : ProcessingError} : Crosses w boundary record (.error e) →
      Outgoing w boundary record (.error e)
  | unconfigured {crossed : Record} : Crosses w boundary record (.ok crossed) →
      w.processor.codec = none → Outgoing w boundary record (.error (.codec .notConfigured))
  | refused {crossed : Record} {codec : Codec} {fault : CodecFault} :
      Crosses w boundary record (.ok crossed) → w.processor.codec = some codec →
      codec.encode crossed = .error fault →
      Outgoing w boundary record (.error (.codec (.encode fault)))
  | encoded {crossed : Record} {codec : Codec} {data : Bytes} :
      Crosses w boundary record (.ok crossed) → w.processor.codec = some codec →
      codec.encode crossed = .ok data → Outgoing w boundary record (.ok data)

/-- How it ends that bytes come in: the codec comes before the crossing. -/
inductive Incoming (w : Work) (boundary : Boundary) (data : Bytes) :
    Except ProcessingError Record → Prop
  | unconfigured : w.processor.codec = none →
      Incoming w boundary data (.error (.codec .notConfigured))
  | refused {codec : Codec} {fault : CodecFault} : w.processor.codec = some codec →
      codec.decode data w.processor.type.empty = .error fault →
      Incoming w boundary data (.error (.codec (.decode fault)))
  | decoded {codec : Codec} {record : Record} {result : Except ProcessingError Record} :
      w.processor.codec = some codec → codec.decode data w.processor.type.empty = .ok record →
      Crosses w boundary record result → Incoming w boundary data result

namespace Session
variable {w : Work} {boundary : Boundary}

theorem cross_iff {record : Record} {result : Except ProcessingError Record} :
    (cross boundary record w).1 = result ↔ Crosses w boundary record result := by
  rw [cross_apply]
  constructor
  · intro h
    subst h
    cases ho : w.processor.outcome with
    | error e => exact .validation ho
    | ok u =>
      rcases hall : performAll boundary.actions record (entered boundary w) with
        ⟨⟨left, outcome⟩, w₁⟩
      cases outcome with
      | error e => exact .transform ho hall
      | ok n => exact .crossed ho hall
  · intro h
    cases h with
    | validation ho => simp only [ho]
    | transform ho hall => simp only [ho, hall]
    | crossed ho hall => simp only [ho, hall]

theorem outbound_iff {record : Record} {result : Except ProcessingError Bytes} :
    (outbound boundary record w).1 = result ↔ Outgoing w boundary record result := by
  rw [outbound_result]
  constructor
  · intro h
    subst h
    cases hcross : (cross boundary record w).1 with
    | error e => exact .crossing (cross_iff.mp hcross)
    | ok crossed =>
      simp only [marshal_apply]
      cases hcodec : w.processor.codec with
      | none => exact .unconfigured (cross_iff.mp hcross) hcodec
      | some codec =>
        simp only
        cases hencode : codec.encode crossed with
        | ok data => exact .encoded (cross_iff.mp hcross) hcodec hencode
        | error fault => exact .refused (cross_iff.mp hcross) hcodec hencode
  · intro h
    cases h with
    | crossing hcross => rw [cross_iff.mpr hcross]
    | unconfigured hcross hcodec =>
      rw [cross_iff.mpr hcross]
      simp only [marshal_apply, hcodec]
    | refused hcross hcodec hencode =>
      rw [cross_iff.mpr hcross]
      simp only [marshal_apply, hcodec, hencode]
    | encoded hcross hcodec hencode =>
      rw [cross_iff.mpr hcross]
      simp only [marshal_apply, hcodec, hencode]

theorem inbound_iff {data : Bytes} {result : Except ProcessingError Record} :
    (inbound boundary data w).1 = result ↔ Incoming w boundary data result := by
  have hcalling : ∀ record call,
      (cross boundary record (w.calling call)).1 = (cross boundary record w).1 :=
    fun record call => ((cross_uncoded boundary record).calling call).1
  rw [inbound_apply, unmarshal_apply]
  constructor
  · intro h
    subst h
    cases hcodec : w.processor.codec with
    | none => exact .unconfigured hcodec
    | some codec =>
      simp only
      cases hdecode : codec.decode data w.processor.type.empty with
      | ok record => exact .decoded hcodec hdecode (cross_iff.mp (hcalling record _).symm)
      | error fault => exact .refused hcodec hdecode
  · intro h
    cases h with
    | unconfigured hcodec => simp only [hcodec]
    | refused hcodec hdecode => simp only [hcodec, hdecode]
    | decoded hcodec hdecode hcross =>
      simp only [hcodec, hdecode, hcalling, cross_iff.mpr hcross]

/-! ### The four ways through the codec -/

/-- What is owed by a way out, which leads through a crossing to the codec. -/
structure SendsOut (run : Record → Session (Except ProcessingError Bytes))
    (crossing : Record → Session (Except ProcessingError Record)) (boundary : Boundary) :
    Prop where
  /-- A crossing calls no codec. -/
  quiet : ∀ w record, (crossing record w).2.calls = w.calls
  /-- The crossing comes first; then the codec is called, and its answer is reported. -/
  first : ∀ w record, (run record w).2 =
    (crossing record w).2.seen (w.processor.coded boundary (crossing record w).1)
  /-- The codec, if there is one, is called if the record has crossed, once, and for the record that
  has crossed; there is no other call. -/
  calls : ∀ w record, (run record w).2.calls =
    w.calls ++ w.processor.encodings (crossing record w).1
  /-- Nothing but the answer to this call is taken from the codec. -/
  answers : ∀ w record codec codec', w.processor.codec = some codec →
    (∀ call ∈ w.processor.encodings (crossing record w).1, call.Alike codec codec') →
    run record (w.withCodec codec') = ((run record w).1, (run record w).2.withCodec codec')
  order : ∀ w record result, (run record w).1 = result ↔ Outgoing w boundary record result

/-- What is owed by a way in, which leads from the codec through a crossing. -/
structure TakesIn (run : Bytes → Session (Except ProcessingError Record))
    (crossing : Record → Session (Except ProcessingError Record)) (boundary : Boundary) :
    Prop where
  /-- The codec, if there is one, is called once, to decode the bytes into the empty record; there
  is no other call. -/
  calls : ∀ w data, (run data w).2.calls = w.calls ++ w.processor.decodings data
  /-- Nothing but the answer to this call is taken from the codec. -/
  answers : ∀ w data codec codec', w.processor.codec = some codec →
    (∀ call ∈ w.processor.decodings data, call.Alike codec codec') →
    run data (w.withCodec codec') = ((run data w).1, (run data w).2.withCodec codec')
  /-- A boundary is crossed just if the codec decodes the bytes, -/
  crosses : ∀ w data, ∃ tail, (run data w).2.events = w.events ++ tail ∧
    ((∃ other, Event.started other ∈ tail) ↔ ∃ codec record, w.processor.codec = some codec ∧
      codec.decode data w.processor.type.empty = .ok record)
  /-- and what crosses, once the codec was called, is the record that was decoded. -/
  decoded : ∀ w data codec record, w.processor.codec = some codec →
    codec.decode data w.processor.type.empty = .ok record →
    run data w = crossing record (w.calling (.decode data w.processor.type.empty))
  order : ∀ w data result, (run data w).1 = result ↔ Incoming w boundary data result

theorem sendsOut_outbound (boundary : Boundary) :
    SendsOut (outbound boundary) (cross boundary) boundary where
  quiet _ record := (cross_uncoded boundary record).calls
  first w := outbound_work w boundary
  calls _ := outbound_calls
  answers _ _ _ _ := outbound_withCodec
  order _ _ _ := outbound_iff

theorem inbound_crosses (boundary : Boundary) (data : Bytes) :
    ∃ tail, (inbound boundary data w).2.events = w.events ++ tail ∧
      ((∃ other, Event.started other ∈ tail) ↔ ∃ codec record, w.processor.codec = some codec ∧
        codec.decode data w.processor.type.empty = .ok record) := by
  cases hcodec : w.processor.codec with
  | none =>
    refine ⟨[], ?_, by simp⟩
    rw [inbound_apply, unmarshal_apply, hcodec, List.append_nil]
  | some codec =>
    cases hdecode : codec.decode data w.processor.type.empty with
    | error fault =>
      refine ⟨[.decodeFailed data.length fault], ?_, by simp [hdecode]⟩
      rw [inbound_apply, unmarshal_apply]
      simp only [hcodec, hdecode, report_events, Work.calling_events]
    | ok record =>
      obtain ⟨ran, closing, -, -, -, hevents⟩ :=
        cross_events (w.calling (.decode data w.processor.type.empty)) boundary record
      rw [Work.calling_events] at hevents
      rw [inbound_of_decode w hcodec hdecode]
      exact ⟨_, hevents, ⟨fun _ => ⟨codec, record, rfl, hdecode⟩, fun _ => ⟨boundary, by simp⟩⟩⟩

theorem takesIn_inbound (boundary : Boundary) :
    TakesIn (inbound boundary) (cross boundary) boundary where
  calls _ := inbound_calls
  answers _ _ _ _ := inbound_withCodec
  crosses _ := inbound_crosses boundary
  decoded w _ _ _ := inbound_of_decode w
  order _ _ _ := inbound_iff

theorem loggable_calls (record : Record) : (loggable record w).2.calls = w.calls := by
  have hquiet := (cross_uncoded (w := w) .send record).calls
  rw [loggable, State.bind_apply, send]
  rcases hc : cross .send record w with ⟨outcome, w₁⟩
  rw [hc] at hquiet
  cases outcome with
  | error e => exact hquiet
  | ok sent =>
    simp only [State.bind_apply, processor_apply]
    cases w₁.processor.type.toJson sent with
    | ok json => exact hquiet
    | error reason => exact (report_uncoded _).calls.trans hquiet

end Session

/-! ### Runs -/

/-- What the codec is called for in an operation. -/
def Operation.codecCalls (w : Work) : Operation → List CodecCall
  | .decode data => w.processor.decodings data
  | .read data => w.processor.decodings data
  | .write record => w.processor.encodings (Session.store record w).1
  | .encode record => w.processor.encodings (Session.send record w).1
  | _ => []

/-- What the codec is called for in a run of operations. -/
def Work.codecCalls : Work → List Operation → List CodecCall
  | _, [] => []
  | w, op :: rest => op.codecCalls w ++ codecCalls (op.run w).2 rest

theorem Operation.run_calls (op : Operation) (w : Work) :
    (op.run w).2.calls = w.calls ++ op.codecCalls w := by
  have hreport : ∀ (w₁ : Work) event, (Session.report event w₁).2.calls = w₁.calls :=
    fun _ _ => (Session.report_uncoded _).calls
  cases op with
  | decode data => exact Session.inbound_calls data
  | read data => exact Session.inbound_calls data
  | write record => exact Session.outbound_calls record
  | encode record => exact Session.outbound_calls record
  | setEncryptor algorithm encryptor => exact (hreport _ _).trans (List.append_nil _).symm
  | setHasher algorithm hasher => exact (hreport _ _).trans (List.append_nil _).symm
  | setMasker format masker => exact (hreport _ _).trans (List.append_nil _).symm
  | setCodec codec => exact (hreport _ _).trans (List.append_nil _).symm
  | setKey algorithm key =>
    refine Eq.trans ?_ (List.append_nil _).symm
    rw [run, State.bind_apply, Session.setKey_apply]
    cases Encryptor.ofKey algorithm key with
    | error e => rfl
    | ok encryptor => exact hreport _ _
  | validate => exact Session.validate_uncoded.calls.trans (List.append_nil _).symm
  | cross boundary record =>
    exact (Session.cross_uncoded boundary record).calls.trans (List.append_nil _).symm
  | loggable record => exact (Session.loggable_calls record).trans (List.append_nil _).symm

theorem Work.calls_after (w : Work) (ops : List Operation) :
    (w.after ops).calls = w.calls ++ w.codecCalls ops := by
  induction ops generalizing w with
  | nil => exact (List.append_nil _).symm
  | cons op rest ih => rw [after, ih, op.run_calls, codecCalls, List.append_assoc]

namespace Session

/-- **The codec only ever sees transformed records.** To write is to store and then to encode, to
encode a record for sending is to send it first; and to decode or to read is to decode first, and
then to receive or to load what was decoded. Whatever the state of the processor and whatever the
codec does, it is called to encode what has crossed and nothing else, and the error is that of the
first step that fails. In a run there are these calls, and no others. -/
theorem codec_sees_crossed :
    SendsOut write store .store ∧ SendsOut encode send .send ∧
      TakesIn decode receive .receive ∧ TakesIn read load .load ∧
      ∀ (w : Work) (ops : List Operation), (w.after ops).calls = w.calls ++ w.codecCalls ops :=
  ⟨sendsOut_outbound .store, sendsOut_outbound .send, takesIn_inbound .receive,
    takesIn_inbound .load, Work.calls_after⟩

open Sample in
/-- A codec that is out of order is called for the letter as it is sent, and only once. -/
example : (encode (letter "Ada" "Eve" [7]) (starredOffice.withCodec .refusing)).2.calls =
    [.encode (letter "-" "Eve" (Utf8.encode "+"))] := rfl

end Session

end RecordPrivacy
