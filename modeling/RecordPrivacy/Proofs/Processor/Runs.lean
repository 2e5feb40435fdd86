import RecordPrivacy.Proofs.Processor.Events

/-! Runs of operations.

A run carries out operations one after the other. What an operation leaves of the processor depends
on the processor alone (`run_processor`): it may register a capability or attach a codec, and it may
settle the outcome of validation. An operation that takes a record across a boundary reports what
the crossing reports (`reports_crossing`), and nothing else that tells of that outcome. -/
namespace RecordPrivacy

/-! ### Operations -/

/-- What may be asked of a processor. -/
inductive Operation where
  | setEncryptor (algorithm : EncryptionAlgorithm) (encryptor : Encryptor)
  | setHasher (algorithm : HashAlgorithm) (hasher : Hasher)
  | setMasker (format : MaskFormat) (masker : Masker)
  | setKey (algorithm : EncryptionAlgorithm) (key : Bytes)
  | setCodec (codec : Codec)
  | validate
  | cross (boundary : Boundary) (record : Record)
  | decode (data : Bytes)
  | read (data : Bytes)
  | write (record : Record)
  | encode (record : Record)
  | loggable (record : Record)

inductive Answer where
  | done
  | keyed (result : Except CapabilityError Unit)
  | validated (outcome : Except ValidationError Unit)
  | record (result : Except ProcessingError Record)
  | bytes (result : Except ProcessingError Bytes)
  | json (value : Json)

namespace Operation

def run : Operation → Session Answer
  | .setEncryptor algorithm encryptor => do
    Session.setEncryptor algorithm encryptor
    return .done
  | .setHasher algorithm hasher => do
    Session.setHasher algorithm hasher
    return .done
  | .setMasker format masker => do
    Session.setMasker format masker
    return .done
  | .setKey algorithm key => return .keyed (← Session.setKey algorithm key)
  | .setCodec codec => do
    Session.setCodec codec
    return .done
  | .validate => return .validated (← Session.validate)
  | .cross boundary record => return .record (← Session.cross boundary record)
  | .decode data => return .record (← Session.decode data)
  | .read data => return .record (← Session.read data)
  | .write record => return .bytes (← Session.write record)
  | .encode record => return .bytes (← Session.encode record)
  | .loggable record => return .json (← Session.loggable record)

/-- The boundary that is crossed, with the record that is taken across. -/
def crossing? (p : Processor) : Operation → Option (Boundary × Record)
  | .cross boundary record => some (boundary, record)
  | .decode data => (p.decoded? data).map (.receive, ·)
  | .read data => (p.decoded? data).map (.load, ·)
  | .write record => some (.store, record)
  | .encode record => some (.send, record)
  | .loggable record => some (.send, record)
  | _ => none

/-- Whether the operation asks for the outcome of validation. -/
def asks (p : Processor) : Operation → Bool
  | .validate => true
  | op => (op.crossing? p).isSome

/-- What the operation makes of the registry. -/
def registered (c : Capabilities) : Operation → Capabilities
  | .setEncryptor algorithm encryptor => c.insertEncryptor algorithm encryptor
  | .setHasher algorithm hasher => c.insertHasher algorithm hasher
  | .setMasker format masker => c.insertMasker format masker
  | .setKey algorithm key =>
    match Encryptor.ofKey algorithm key with
    | .error _ => c
    | .ok encryptor => c.insertEncryptor algorithm encryptor
  | _ => c

def codecAfter (codec : Option Codec) : Operation → Option Codec
  | .setCodec codec => some codec
  | _ => codec

/-- What the operation leaves of the processor. -/
def effect (op : Operation) (p : Processor) : Processor where
  type := p.type
  shared := p.shared
  capabilities := op.registered p.capabilities
  codec := op.codecAfter p.codec
  validation := if op.asks p then some p.outcome else p.validation

end Operation

/-- The session after operations, in order. -/
def Work.after : Work → List Operation → Work
  | w, [] => w
  | w, op :: rest => after (op.run w).2 rest

theorem Work.after_append (w : Work) (a b : List Operation) :
    w.after (a ++ b) = (w.after a).after b := by
  induction a generalizing w with
  | nil => rfl
  | cons op a ih => exact ih (op.run w).2

/-- What the operation reports. -/
def Operation.reports (op : Operation) (w : Work) : List Event :=
  (op.run w).2.events.drop w.events.length

def Answer.outcome? : Answer → Option (Except ValidationError Unit)
  | .validated outcome => some outcome
  | .record (.ok _) => some (.ok ())
  | .record (.error error) => error.outcome?
  | .bytes (.ok _) => some (.ok ())
  | .bytes (.error error) => error.outcome?
  | _ => none

/-! ### Operations that cross a boundary -/

namespace Session
open State
variable (w : Work)

/-- What comes in tells no more of validation than the crossing. -/
theorem inbound_notes (boundary : Boundary) {data : Bytes} {record : Record}
    (h : w.processor.decoded? data = some record) :
    (cross boundary record w).2.Notes (inbound boundary data w).2 ∧
      ((Answer.record (inbound boundary data w).1).outcome? = none ∨
        (Answer.record (inbound boundary data w).1).outcome? =
          (Answer.record (cross boundary record w).1).outcome?) := by
  obtain ⟨hresult, hwork⟩ := inbound_decoded w boundary h
  rw [hresult]
  exact ⟨hwork.notes, .inr rfl⟩

/-- What cannot be decoded tells nothing of it. -/
theorem inbound_silent (boundary : Boundary) {data : Bytes}
    (h : w.processor.decoded? data = none) :
    w.Notes (inbound boundary data w).2 ∧
      (Answer.record (inbound boundary data w).1).outcome? = none := by
  obtain ⟨⟨e, he⟩, hnotes⟩ := inbound_undecoded w boundary h
  rw [he]
  exact ⟨hnotes, rfl⟩

/-- What goes out tells no more of validation than the crossing. -/
theorem outbound_notes (boundary : Boundary) (record : Record) :
    (cross boundary record w).2.Notes (outbound boundary record w).2 ∧
      ((Answer.bytes (outbound boundary record w).1).outcome? = none ∨
        (Answer.bytes (outbound boundary record w).1).outcome? =
          (Answer.record (cross boundary record w).1).outcome?) := by
  rw [outbound_apply]
  rcases cross boundary record w with ⟨result, w₁⟩
  cases result with
  | error e => exact ⟨.refl w₁, .inr rfl⟩
  | ok crossed =>
    refine ⟨marshal_notes w₁ boundary crossed, ?_⟩
    simp only [marshal_apply]
    cases w₁.processor.codec with
    | none => exact .inl rfl
    | some codec =>
      simp only
      cases codec.encode crossed with
      | ok data => exact .inr rfl
      | error fault => exact .inl rfl

theorem loggable_notes (record : Record) :
    (cross .send record w).2.Notes (loggable record w).2 := by
  rw [loggable, bind_apply, send]
  rcases cross .send record w with ⟨result, w₁⟩
  cases result with
  | error e => exact .refl w₁
  | ok sent =>
    simp only [bind_apply, processor_apply]
    cases w₁.processor.type.toJson sent with
    | ok json => exact .refl w₁
    | error reason => exact notes_report w₁ rfl

theorem setKey_apply (algorithm : EncryptionAlgorithm) (key : Bytes) :
    setKey algorithm key w =
      match Encryptor.ofKey algorithm key with
      | .error e => (.error e, w)
      | .ok encryptor => (.ok (), (setEncryptor algorithm encryptor w).2) := by
  rw [setKey]
  cases Encryptor.ofKey algorithm key <;> rfl

end Session

/-! ### One operation -/

namespace Operation
variable {op : Operation} {w : Work}

/-- An operation that crosses a boundary tells no more of validation than the crossing. -/
theorem run_crosses {boundary : Boundary} {record : Record}
    (h : op.crossing? w.processor = some (boundary, record)) :
    (Session.cross boundary record w).2.Notes (op.run w).2 ∧
      ((op.run w).1.outcome? = none ∨
        (op.run w).1.outcome? =
          (Answer.record (Session.cross boundary record w).1).outcome?) := by
  cases op with
  | cross boundary' record' =>
    cases h
    exact ⟨.refl _, .inr rfl⟩
  | decode data =>
    obtain ⟨_, hdecoded, h⟩ := Option.map_eq_some_iff.mp h
    cases h
    exact Session.inbound_notes w .receive hdecoded
  | read data =>
    obtain ⟨_, hdecoded, h⟩ := Option.map_eq_some_iff.mp h
    cases h
    exact Session.inbound_notes w .load hdecoded
  | write record' =>
    cases h
    exact Session.outbound_notes w .store record
  | encode record' =>
    cases h
    exact Session.outbound_notes w .send record
  | loggable record' =>
    cases h
    exact ⟨Session.loggable_notes w record, .inl rfl⟩
  | _ => cases h

theorem asks_iff {p : Processor} : op.asks p = true ↔
    op = .validate ∨ ∃ boundary record, op.crossing? p = some (boundary, record) := by
  have hcrossing : (op.crossing? p).isSome ↔
      ∃ boundary record, op.crossing? p = some (boundary, record) := by
    rw [Option.isSome_iff_exists, Prod.exists]
  rw [← hcrossing]
  cases op <;> simp [asks]

theorem effect_crossing {p : Processor} {boundary : Boundary} {record : Record}
    (h : op.crossing? p = some (boundary, record)) : op.effect p = p.settled := by
  have hasks : op.asks p = true := asks_iff.mpr (.inr ⟨boundary, record, h⟩)
  have hkept : op.registered p.capabilities = p.capabilities ∧ op.codecAfter p.codec = p.codec := by
    cases op <;> first | exact ⟨rfl, rfl⟩ | cases h
  rw [effect, hkept.1, hkept.2, if_pos hasks]
  rfl

theorem effect_undecoded {p : Processor} {data : Bytes} (h : p.decoded? data = none) :
    (decode data).effect p = p ∧ (read data).effect p = p := by
  have hdecode : (decode data).asks p = false := by simp [asks, crossing?, h]
  have hread : (read data).asks p = false := by simp [asks, crossing?, h]
  rw [effect, effect, hdecode, hread]
  exact ⟨rfl, rfl⟩

/-- An operation that does not ask for the outcome of validation tells nothing of it. -/
theorem run_unasked (h : op.asks w.processor = false) :
    { w with processor := op.effect w.processor }.Notes (op.run w).2 ∧
      (op.run w).1.outcome? = none := by
  cases op with
  | setEncryptor algorithm encryptor => exact ⟨Session.notes_report _ rfl, rfl⟩
  | setHasher algorithm hasher => exact ⟨Session.notes_report _ rfl, rfl⟩
  | setMasker format masker => exact ⟨Session.notes_report _ rfl, rfl⟩
  | setCodec codec => exact ⟨Session.notes_report _ rfl, rfl⟩
  | setKey algorithm key =>
    rw [run, State.bind_apply, Session.setKey_apply, effect, registered]
    cases Encryptor.ofKey algorithm key with
    | error e => exact ⟨.refl w, rfl⟩
    | ok encryptor => exact ⟨Session.notes_report _ rfl, rfl⟩
  | decode data =>
    have hnone : w.processor.decoded? data = none := by simpa [asks, crossing?] using h
    rw [(effect_undecoded hnone).1]
    exact Session.inbound_silent w .receive hnone
  | read data =>
    have hnone : w.processor.decoded? data = none := by simpa [asks, crossing?] using h
    rw [(effect_undecoded hnone).2]
    exact Session.inbound_silent w .load hnone
  | _ => cases h

/-- What an operation leaves of the processor. -/
theorem run_processor (op : Operation) (w : Work) :
    (op.run w).2.processor = op.effect w.processor := by
  cases hasks : op.asks w.processor with
  | false => exact (run_unasked hasks).1.processor
  | true =>
    rcases asks_iff.mp hasks with rfl | ⟨boundary, record, hcrossing⟩
    · exact Session.validate_processor w
    · rw [(run_crosses hcrossing).1.processor, effect_crossing hcrossing]
      exact Session.cross_processor w boundary record

theorem reports_eq {events : List Event} (h : (op.run w).2.events = w.events ++ events) :
    op.reports w = events := by
  rw [reports, h, List.drop_left]

theorem reports_unasked (h : op.asks w.processor = false) :
    ∀ event ∈ op.reports w, event.outcome? = none := by
  obtain ⟨tail, hrun, hsilent⟩ := (run_unasked h).1.events
  have hreports : op.reports w = tail := reports_eq hrun
  rwa [hreports]

theorem reports_validate : validate.reports w = Session.askedEvents w.processor :=
  reports_eq (Session.validate_events w)

/-- The reports of an operation that crosses a boundary are those of the crossing, and some that
tell nothing of validation. -/
theorem reports_crossing {boundary : Boundary} {record : Record}
    (h : op.crossing? w.processor = some (boundary, record)) :
    ∃ (ran : List Action) (closing : Event) (tail : List Event),
      op.reports w = .started boundary :: (Session.askedEvents w.processor ++
        (ran.map .overridden ++ closing :: tail)) ∧
      closing.Closes boundary (Session.cross boundary record w).1 ∧
      ∀ event ∈ tail, event.outcome? = none := by
  obtain ⟨tail, hrun, hsilent⟩ := (run_crosses h).1.events
  obtain ⟨ran, closing, -, -, hcloses, hevents⟩ := Session.cross_events w boundary record
  refine ⟨ran, closing, tail, reports_eq ?_, hcloses, hsilent⟩
  rw [hrun, hevents]
  simp

/-- A transform that is reported to have failed did so in the crossing. -/
theorem cross_of_failed {boundary : Boundary} {e : TransformError}
    (h : .failed boundary (.transform e) ∈ op.reports w) :
    ∃ record, op.crossing? w.processor = some (boundary, record) ∧
      (Session.cross boundary record w).1 = .error (.transform e) := by
  cases hasks : op.asks w.processor with
  | false => cases reports_unasked hasks _ h
  | true =>
    rcases asks_iff.mp hasks with rfl | ⟨crossed, record, hcrossing⟩
    · obtain ⟨_, -, he⟩ := Session.mem_askedEvents (reports_validate ▸ h)
      cases he
    · obtain ⟨ran, closing, tail, hreports, hcloses, hsilent⟩ := reports_crossing hcrossing
      simp only [hreports, List.mem_cons, List.mem_append, List.mem_map] at h
      rcases h with he | h | ⟨_, -, he⟩ | rfl | h
      · cases he
      · obtain ⟨_, -, he⟩ := Session.mem_askedEvents h
        cases he
      · cases he
      · generalize hresult : (Session.cross crossed record w).1 = result at hcloses
        cases hcloses
        exact ⟨record, hcrossing, hresult⟩
      · cases hsilent _ h

end Operation

/-! ### Runs -/

/-- What every operation keeps of a processor a run keeps of it. -/
theorem Work.after_invariant {P : Processor → Prop}
    (step : ∀ (op : Operation) p, P p → P (op.effect p)) (ops : List Operation) {w : Work}
    (h : P w.processor) : P (w.after ops).processor := by
  induction ops generalizing w with
  | nil => exact h
  | cons op rest ih => exact ih ((op.run_processor w).symm ▸ step op w.processor h)

/-- The type and the plans are never changed. -/
theorem Work.after_fixed (w : Work) (ops : List Operation) :
    (w.after ops).processor.type = w.processor.type ∧
      (w.after ops).processor.plans = w.processor.plans :=
  after_invariant (P := fun p => p.type = w.processor.type ∧ p.plans = w.processor.plans)
    (fun _ _ h => h) ops ⟨rfl, rfl⟩

end RecordPrivacy
