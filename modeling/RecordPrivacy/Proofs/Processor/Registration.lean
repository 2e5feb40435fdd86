import RecordPrivacy.Proofs.Capability.Lookup
import RecordPrivacy.Proofs.Processor.Soundness

/-! Registration over runs.

A registry is read through the parameters of plans (`Capabilities.at?`), and an operation changes
what is read at the parameter under which it registers, and nowhere else (`at?_registered`). Hence
what is used for a parameter is what was registered for it last (`at?_after`). Where no type of its
own carries out an action, a session does not depend on what no plan has for its parameter: two
sessions that are alike but for that stay alike (`Lockstep.run`). `registry_last_writer` puts the
two together. -/
namespace RecordPrivacy

/-! ### Registering -/

namespace Operation

/-- The parameter under which the operation registers something, if all goes well. -/
def names? : Operation → Option Parameter
  | .setEncryptor algorithm _ => some (.encryptor algorithm)
  | .setHasher algorithm _ => some (.hasher algorithm)
  | .setMasker format _ => some (.masker format)
  | .setKey algorithm _ => some (.encryptor algorithm)
  | _ => none

/-- What it registers; a key need not be one. -/
def capability? : Operation → Option Capability
  | .setEncryptor _ encryptor => some (.encryptor encryptor)
  | .setHasher _ hasher => some (.hasher hasher)
  | .setMasker _ masker => some (.masker masker)
  | .setKey algorithm key => (Encryptor.ofKey algorithm key).toOption.map .encryptor
  | _ => none

/-- What it registers for the parameter. -/
def registers? (parameter : Parameter) (op : Operation) : Option Capability :=
  if op.names? = some parameter then op.capability? else none

theorem at?_registered (op : Operation) (c : Capabilities) (parameter : Parameter) :
    (op.registered c).at? parameter = (op.registers? parameter).or (c.at? parameter) := by
  cases op with
  | setEncryptor algorithm encryptor =>
    rw [registered, Capabilities.at?_insertEncryptor, registers?, names?, capability?]
    by_cases h : parameter = .encryptor algorithm <;> simp [h, eq_comm]
  | setHasher algorithm hasher =>
    rw [registered, Capabilities.at?_insertHasher, registers?, names?, capability?]
    by_cases h : parameter = .hasher algorithm <;> simp [h, eq_comm]
  | setMasker format masker =>
    rw [registered, Capabilities.at?_insertMasker, registers?, names?, capability?]
    by_cases h : parameter = .masker format <;> simp [h, eq_comm]
  | setKey algorithm key =>
    rw [registered, registers?, names?, capability?]
    cases Encryptor.ofKey algorithm key with
    | error e => simp [Except.toOption]
    | ok encryptor =>
      rw [Capabilities.at?_insertEncryptor]
      by_cases h : parameter = .encryptor algorithm <;> simp [h, Except.toOption, eq_comm]
  | _ => rfl

/-- The last of the operations that registers something for the parameter decides. -/
def latest? (parameter : Parameter) (ops : List Operation) : Option Capability :=
  ops.reverse.findSome? (registers? parameter)

theorem latest?_cons (parameter : Parameter) (op : Operation) (ops : List Operation) :
    latest? parameter (op :: ops) = (latest? parameter ops).or (op.registers? parameter) := by
  rw [latest?, List.reverse_cons, List.findSome?_append, latest?]
  cases h : op.registers? parameter <;> simp [h]

/-- An operation that registers nothing leaves the registry alone. -/
theorem registered_eq_self {op : Operation} (c : Capabilities) (h : op.capability? = none) :
    op.registered c = c := by
  cases op with
  | setKey algorithm key =>
    rw [registered]
    cases hkey : Encryptor.ofKey algorithm key with
    | error e => rfl
    | ok encryptor => simp [capability?, hkey, Except.toOption] at h
  | setEncryptor _ _ => cases h
  | setHasher _ _ => cases h
  | setMasker _ _ => cases h
  | _ => rfl

theorem capability?_of_keyed {op : Operation} {w : Work} {e : CapabilityError}
    (h : (op.run w).1 = .keyed (.error e)) : op.capability? = none := by
  cases op with
  | setKey algorithm key =>
    rw [run, State.bind_apply, Session.setKey_apply] at h
    cases hkey : Encryptor.ofKey algorithm key with
    | error x => simp [capability?, hkey, Except.toOption]
    | ok encryptor =>
      rw [hkey] at h
      cases h
  | _ => cases h

end Operation

/-- What is registered for a parameter is what was registered for it last. -/
theorem Work.at?_after (w : Work) (ops : List Operation) (parameter : Parameter) :
    (w.after ops).processor.capabilities.at? parameter =
      (Operation.latest? parameter ops).or (w.processor.capabilities.at? parameter) := by
  induction ops generalizing w with
  | nil => rfl
  | cons op rest ih =>
    rw [after, ih, op.run_processor, Operation.effect, op.at?_registered, Operation.latest?_cons,
      Option.or_assoc]

/-! ### Sessions that are alike -/

/-- Two sessions with a type that carries out no action itself. They have the same capabilities for
the plans of the type, and differ only in what else is registered and in what they have done. -/
structure Work.Alike (w w' : Work) : Prop where
  processor : w'.processor = { w.processor with capabilities := w'.processor.capabilities }
  entropy : w'.entropy = w.entropy
  registered : ∀ action, ∀ plan ∈ w.processor.plans.forAction action,
    w'.processor.capabilities.at? plan.parameter = w.processor.capabilities.at? plan.parameter
  plain : w.processor.type.overrides = []

namespace Work.Alike
variable {w w' : Work}

theorem of_plain (h : w.processor.type.overrides = []) : w.Alike w :=
  ⟨rfl, rfl, fun _ _ _ => rfl, h⟩

theorem type (h : w.Alike w') : w'.processor.type = w.processor.type := by
  rw [h.processor]

theorem plans (h : w.Alike w') : w'.processor.plans = w.processor.plans := by
  rw [h.processor]
  rfl

theorem codec (h : w.Alike w') : w'.processor.codec = w.processor.codec := by
  rw [h.processor]

theorem validation (h : w.Alike w') : w'.processor.validation = w.processor.validation := by
  rw [h.processor]

theorem plain' (h : w.Alike w') : w'.processor.type.overrides = [] :=
  h.type ▸ h.plain

theorem outcome (h : w.Alike w') : w'.processor.outcome = w.processor.outcome := by
  rw [Processor.outcome, Processor.outcome, h.validation, h.plans, h.type,
    Capabilities.validate_congr _ h.registered]

/-- What was done does not matter. -/
theorem withHistory (h : w.Alike w') (earlier earlier' : List Occurrence) :
    Work.Alike { w with history := earlier } { w' with history := earlier' } :=
  ⟨h.processor, h.entropy, h.registered, h.plain⟩

end Work.Alike

/-- Two sessions that started from `w` and `w'` have come to the same answer, the same was seen of
both, and they are alike. -/
structure Session.Lockstep {α : Type} (w w' : Work) (out out' : α × Work) : Prop where
  answer : out'.1 = out.1
  history : ∃ tail, out.2.history = w.history ++ tail ∧ out'.2.history = w'.history ++ tail
  alike : out.2.Alike out'.2

namespace Session.Lockstep
open State
variable {α β : Type} {w w' : Work}

theorem events {out out' : α × Work} (h : Lockstep w w' out out') :
    ∃ tail, out.2.events = w.events ++ tail ∧ out'.2.events = w'.events ++ tail := by
  obtain ⟨tail, htail, htail'⟩ := h.history
  refine ⟨tail.filterMap Occurrence.event?, ?_, ?_⟩
  · rw [Work.events, htail, List.filterMap_append]
    rfl
  · rw [Work.events, htail', List.filterMap_append]
    rfl

theorem pure (h : w.Alike w') (a : α) : Lockstep w w' (a, w) (a, w') :=
  ⟨rfl, ⟨[], (List.append_nil _).symm, (List.append_nil _).symm⟩, h⟩

theorem bind {x : Session α} {f : α → Session β} (hx : Lockstep w w' (x w) (x w'))
    (hf : ∀ a (w₁ w₁' : Work), w₁.Alike w₁' → Lockstep w₁ w₁' (f a w₁) (f a w₁')) :
    Lockstep w w' ((x >>= f) w) ((x >>= f) w') := by
  obtain ⟨tail, htail, htail'⟩ := hx.history
  have hrest := hf (x w).1 (x w).2 (x w').2 hx.alike
  obtain ⟨later, hlater, hlater'⟩ := hrest.history
  rw [bind_apply, bind_apply, hx.answer]
  refine ⟨hrest.answer, ⟨tail ++ later, ?_, ?_⟩, hrest.alike⟩
  · rw [hlater, htail, List.append_assoc]
  · rw [hlater', htail', List.append_assoc]

theorem answered {x : Session α} (hx : Lockstep w w' (x w) (x w')) (f : α → β) :
    Lockstep w w' ((x >>= fun a => return f a) w) ((x >>= fun a => return f a) w') :=
  bind hx fun a _ _ h => pure h (f a)

theorem keep (h : w.Alike w') (occurrence : Occurrence) :
    Lockstep w w' (keep occurrence w) (keep occurrence w') :=
  ⟨rfl, ⟨[occurrence], rfl, rfl⟩, h.withHistory _ _⟩

theorem report (h : w.Alike w') (event : Event) :
    Lockstep w w' (report event w) (report event w') :=
  keep h (.reported event)

theorem draw (h : w.Alike w') (drawn : Drawn α) : Lockstep w w' (draw drawn w) (draw drawn w') := by
  rw [draw_apply, draw_apply, h.entropy]
  exact ⟨rfl, ⟨[], (List.append_nil _).symm, (List.append_nil _).symm⟩,
    h.processor, rfl, h.registered, h.plain⟩

theorem validate (h : w.Alike w') : Lockstep w w' (validate w) (validate w') := by
  refine ⟨?_, ⟨(askedEvents w.processor).map .reported, validate_history w, ?_⟩, ?_, ?_, ?_, ?_⟩
  · rw [validate_outcome, validate_outcome, h.outcome]
  · rw [validate_history, askedEvents, askedEvents, h.validation, h.outcome]
  · rw [validate_processor, validate_processor, Processor.settled, Processor.settled, h.outcome]
    exact congrArg (fun p : Processor => { p with validation := some w.processor.outcome })
      h.processor
  · rw [validate_entropy, validate_entropy, h.entropy]
  · rw [validate_processor, validate_processor]
    exact h.registered
  · rw [validate_processor]
    exact h.plain

/-- The plans of an action are bound to the same transforms. -/
theorem perform (h : w.Alike w') (action : Action) (record : Record) :
    Lockstep w w' (perform action record w) (perform action record w') := by
  rw [perform_plans w record (by simp [h.plain]), perform_plans w' record (by simp [h.plain']),
    h.plans, traverse_congr action (h.registered action)]
  exact draw h _

theorem performAll (h : w.Alike w') (actions : List Action) (record : Record) :
    Lockstep w w' (performAll actions record w) (performAll actions record w') := by
  induction actions generalizing record w w' with
  | nil => exact pure h _
  | cons action rest ih =>
    refine bind (perform h action record) fun traversed w₁ w₁' h₁ => ?_
    rcases traversed with ⟨mid, outcome⟩
    cases outcome with
    | error e => exact pure h₁ _
    | ok n => exact answered (ih h₁ mid) _

theorem cross (h : w.Alike w') (boundary : Boundary) (record : Record) :
    Lockstep w w' (cross boundary record w) (cross boundary record w') := by
  refine bind (report h _) fun _ w₁ w₁' h₁ => bind (validate h₁) fun outcome w₂ w₂' h₂ => ?_
  cases outcome with
  | error e => exact answered (report h₂ _) _
  | ok u =>
    refine bind (performAll h₂ _ _) fun traversed w₃ w₃' h₃ => ?_
    rcases traversed with ⟨result, outcome⟩
    cases outcome with
    | error e => exact answered (report h₃ _) _
    | ok n => exact answered (report h₃ _) _

/-! ### With the codec -/

theorem callEncode (h : w.Alike w') (codec : Codec) (record : Record) :
    Lockstep w w' (callEncode codec record w) (callEncode codec record w') :=
  answered (keep h _) _

theorem callDecode (h : w.Alike w') (codec : Codec) (data : Bytes) (into : Record) :
    Lockstep w w' (callDecode codec data into w) (callDecode codec data into w') :=
  answered (keep h _) _

theorem unmarshal (h : w.Alike w') (data : Bytes) :
    Lockstep w w' (unmarshal data w) (unmarshal data w') := by
  rw [Session.unmarshal, bind_apply, bind_apply, processor_apply, processor_apply]
  simp only [h.codec, h.type]
  cases w.processor.codec with
  | none => exact pure h _
  | some codec =>
    refine bind (callDecode h codec data _) fun outcome w₁ w₁' h₁ => ?_
    cases outcome with
    | ok record => exact pure h₁ _
    | error fault => exact answered (report h₁ _) _

theorem marshal (h : w.Alike w') (boundary : Boundary) (record : Record) :
    Lockstep w w' (marshal boundary record w) (marshal boundary record w') := by
  rw [Session.marshal, bind_apply, bind_apply, processor_apply, processor_apply]
  simp only [h.codec]
  cases w.processor.codec with
  | none => exact pure h _
  | some codec =>
    refine bind (callEncode h codec record) fun outcome w₁ w₁' h₁ => ?_
    cases outcome with
    | ok data => exact answered (report h₁ _) _
    | error fault => exact answered (report h₁ _) _

theorem inbound (h : w.Alike w') (boundary : Boundary) (data : Bytes) :
    Lockstep w w' (inbound boundary data w) (inbound boundary data w') := by
  rw [Session.inbound]
  refine bind (unmarshal h data) fun outcome w₁ w₁' h₁ => ?_
  cases outcome with
  | error e => exact pure h₁ _
  | ok record => exact cross h₁ boundary record

theorem outbound (h : w.Alike w') (boundary : Boundary) (record : Record) :
    Lockstep w w' (outbound boundary record w) (outbound boundary record w') := by
  rw [Session.outbound]
  refine bind (cross h boundary record) fun outcome w₁ w₁' h₁ => ?_
  cases outcome with
  | error e => exact pure h₁ _
  | ok crossed => exact marshal h₁ boundary crossed

theorem loggable (h : w.Alike w') (record : Record) :
    Lockstep w w' (loggable record w) (loggable record w') := by
  refine bind (cross h .send record) fun outcome w₁ w₁' h₁ => ?_
  cases outcome with
  | error e => exact pure h₁ _
  | ok sent =>
    simp only [bind_apply, processor_apply, h₁.type]
    cases w₁.processor.type.toJson sent with
    | ok json => exact pure h₁ _
    | error reason => exact answered (report h₁ _) _

/-! ### Operations -/

/-- Both register the same. -/
theorem updateCapabilities (h : w.Alike w') {change : Capabilities → Capabilities}
    (op : Operation) (hchange : change = op.registered) :
    Lockstep w w' (updateCapabilities change w) (updateCapabilities change w') := by
  subst hchange
  refine ⟨rfl, ⟨[], (List.append_nil _).symm, (List.append_nil _).symm⟩, ?_, h.entropy, ?_, h.plain⟩
  · exact congrArg (fun p : Processor => { p with
      capabilities := op.registered w'.processor.capabilities }) h.processor
  · intro action plan hplan
    exact (op.at?_registered _ _).trans ((congrArg _ (h.registered action plan hplan)).trans
      (op.at?_registered _ _).symm)

/-- Both register the same, and report that they do. -/
theorem register (h : w.Alike w') {change : Capabilities → Capabilities} (op : Operation)
    (hchange : change = op.registered) (event : Event) :
    Lockstep w w' ((Session.updateCapabilities change >>= fun _ => Session.report event) w)
      ((Session.updateCapabilities change >>= fun _ => Session.report event) w') :=
  bind (updateCapabilities h op hchange) fun _ _ _ h₁ => report h₁ event

theorem run (h : w.Alike w') (op : Operation) : Lockstep w w' (op.run w) (op.run w') := by
  cases op with
  | setEncryptor algorithm encryptor =>
    exact answered (register h (.setEncryptor algorithm encryptor) rfl _) _
  | setHasher algorithm hasher =>
    exact answered (register h (.setHasher algorithm hasher) rfl _) _
  | setMasker format masker =>
    exact answered (register h (.setMasker format masker) rfl _) _
  | setKey algorithm key =>
    refine answered ?_ _
    rw [Session.setKey]
    cases Encryptor.ofKey algorithm key with
    | error e => exact pure h _
    | ok encryptor => exact answered (register h (.setEncryptor algorithm encryptor) rfl _) _
  | setCodec codec =>
    refine answered (bind (report h _) fun _ w₁ w₁' h₁ => ?_) _
    exact ⟨rfl, ⟨[], (List.append_nil _).symm, (List.append_nil _).symm⟩,
      congrArg (fun p : Processor => { p with codec := some codec }) h₁.processor, h₁.entropy,
      h₁.registered, h₁.plain⟩
  | validate => exact answered (validate h) _
  | cross boundary record => exact answered (cross h boundary record) _
  | decode data => exact answered (inbound h _ data) _
  | read data => exact answered (inbound h _ data) _
  | write record => exact answered (outbound h _ record) _
  | encode record => exact answered (outbound h _ record) _
  | loggable record => exact answered (loggable h record) _

end Session.Lockstep

/-! ### Runs -/

/-- Whether a plan has the parameter under which the operation registers. What registers nothing
concerns every type. -/
def Operation.concerns (plans : PlanSet) (op : Operation) : Bool :=
  op.names?.all fun parameter => plans.entries.any fun entry => entry.2.parameter = parameter

theorem Operation.unconcerned {plans : PlanSet} {op : Operation}
    (h : op.concerns plans = false) : ∃ parameter, op.names? = some parameter ∧
      ∀ action, ∀ plan ∈ plans.forAction action, plan.parameter ≠ parameter := by
  rw [concerns] at h
  cases hnames : op.names? with
  | none => simp [hnames] at h
  | some parameter =>
    have hnone : ∀ entry ∈ plans.entries, ¬ entry.2.parameter = parameter := by
      simpa [hnames] using h
    exact ⟨parameter, rfl, fun action plan hplan =>
      hnone (action, plan) (PlanSet.mem_forAction.mp hplan)⟩

/-- An operation with what came of it. -/
structure Exchange where
  op : Operation
  answer : Answer
  reports : List Event

/-- What came of operations, in order. -/
def Work.transcript : Work → List Operation → List Exchange
  | _, [] => []
  | w, op :: rest => ⟨op, (op.run w).1, op.reports w⟩ :: transcript (op.run w).2 rest

namespace Work.Alike
variable {w w' : Work}

/-- A registration that concerns no plan makes no difference. -/
theorem skip (h : w.Alike w') {op : Operation} (hop : op.concerns w.processor.plans = false) :
    (op.run w).2.Alike w' := by
  obtain ⟨parameter, hnames, hother⟩ := Operation.unconcerned hop
  have hplain : op.asks w.processor = false ∧ op.codecAfter w.processor.codec = w.processor.codec := by
    cases op <;> first | exact ⟨rfl, rfl⟩ | cases hnames
  have hentropy : (op.run w).2.entropy = w.entropy := (Operation.run_unasked hplain.1).1.entropy
  have hprocessor := op.run_processor w
  rw [Operation.effect, hplain.1, hplain.2] at hprocessor
  refine ⟨by rw [hprocessor]; exact h.processor, h.entropy.trans hentropy.symm,
    fun action plan hplan => ?_, by rw [hprocessor]; exact h.plain⟩
  rw [hprocessor] at hplan ⊢
  have hsame : (op.registered w.processor.capabilities).at? plan.parameter =
      w.processor.capabilities.at? plan.parameter := by
    have hnone : op.registers? plan.parameter = none := by
      rw [Operation.registers?, hnames, if_neg]
      exact fun he => hother action plan hplan (Option.some.inj he).symm
    rw [op.at?_registered, hnone, Option.none_or]
  exact (h.registered action plan hplan).trans hsame.symm

/-- Of a run with such registrations there comes what comes of the run without. -/
theorem transcript (h : w.Alike w') {plans : PlanSet} (hplans : w.processor.plans = plans)
    (ops : List Operation) :
    (w.transcript ops).filter (·.op.concerns plans) =
      w'.transcript (ops.filter (·.concerns plans)) := by
  induction ops generalizing w w' with
  | nil => rfl
  | cons op rest ih =>
    have hkept : (op.run w).2.processor.plans = plans := by
      rw [op.run_processor]
      exact hplans
    rw [Work.transcript, List.filter_cons, List.filter_cons]
    cases hop : op.concerns plans with
    | false => exact ih (h.skip (hplans ▸ hop)) hkept
    | true =>
      have hstep := Session.Lockstep.run h op
      obtain ⟨tail, htail, htail'⟩ := hstep.events
      rw [if_pos rfl, if_pos rfl, Work.transcript, ih hstep.alike hkept, hstep.answer,
        Operation.reports_eq htail, Operation.reports_eq htail']

end Work.Alike

/-- What is owed by the registry of a processor over any run from `w`. -/
structure Work.RegistersLast (w : Work) : Prop where
  /-- What is registered for a parameter is what was registered for it last, else what is built
  in. -/
  latest : ∀ ops parameter, (w.after ops).processor.capabilities.at? parameter =
    (Operation.latest? parameter ops).or (Capability.builtin? parameter)
  /-- A crossing uses the registry that it finds, from its first action to its last. -/
  used : ∀ ops (op : Operation) boundary record action mid w₁,
    op.crossing? (w.after ops).processor = some (boundary, record) →
    Session.Reaches (Session.entered boundary (w.after ops)) boundary.actions record action mid w₁ →
    w₁.processor.capabilities = (w.after ops).processor.capabilities ∧
      ∀ parameter kind, parameter.kind? = some kind →
        Transform.bind w₁.processor.capabilities action parameter =
          match (Operation.latest? parameter ops).or (Capability.builtin? parameter) with
          | some capability => .ok (capability.transform action)
          | none => .error (.notRegistered kind parameter.text)
  /-- What does not register leaves the registry alone, and so does a key that is refused. -/
  kept : ∀ ops (op : Operation),
    op.names? = none ∨ (∃ e, (op.run (w.after ops)).1 = .keyed (.error e)) →
    (op.run (w.after ops)).2.processor.capabilities = (w.after ops).processor.capabilities
  /-- Registrations that concern no plan may come and go. -/
  unrelated : w.processor.type.overrides = [] → ∀ ops ops' : List Operation,
    ops.filter (·.concerns w.processor.plans) = ops'.filter (·.concerns w.processor.plans) →
    (w.transcript ops).filter (·.op.concerns w.processor.plans) =
      (w.transcript ops').filter (·.op.concerns w.processor.plans)

/-- A processor starts out with what is built in. -/
theorem Processor.capabilities_of_create {type : RecordType} {cache : PlanCache} {p : Processor}
    (h : (create type cache).1 = .ok p) : p.capabilities = .builtin := by
  unfold create at h
  generalize cache.plansFor type.family type.root = result at h
  rcases result with ⟨result, cache'⟩
  cases result with
  | error e => cases h
  | ok shared =>
    cases h
    rfl

/-- **The last registration counts, and only that of what a plan names.** Whatever is asked of a
processor after its creation, the capability for a parameter is the one that was registered for it
last, else the built-in one, if there is one. No crossing, no codec and no refused key touches the
registry. Without overrides, registrations under parameters that no plan of the type has can be put
in and left out anywhere in a run: all other operations answer and report the same. -/
theorem Work.registry_last_writer {w : Work} {type : RecordType} {cache : PlanCache}
    (created : (Processor.create type cache).1 = .ok w.processor) : w.RegistersLast := by
  have hlatest : ∀ ops parameter, (w.after ops).processor.capabilities.at? parameter =
      (Operation.latest? parameter ops).or (Capability.builtin? parameter) := by
    intro ops parameter
    rw [at?_after, Processor.capabilities_of_create created, Capabilities.at?_builtin]
  refine ⟨hlatest, ?used, ?kept, ?unrelated⟩
  case used =>
    intro ops op boundary record action mid w₁ _ hreaches
    have hregistry : w₁.processor.capabilities = (w.after ops).processor.capabilities := by
      rw [hreaches.processor, Session.entered_processor]
      rfl
    refine ⟨hregistry, fun parameter kind hkind => ?_⟩
    have hbind := Transform.bind_at? (w.after ops).processor.capabilities action hkind
    rw [hlatest] at hbind
    rw [hregistry]
    exact hbind
  case kept =>
    intro ops op h
    rw [op.run_processor]
    refine Operation.registered_eq_self _ ?_
    rcases h with h | ⟨e, h⟩
    · cases op <;> first | rfl | cases h
    · exact Operation.capability?_of_keyed h
  case unrelated =>
    intro plain ops ops' hops
    have halike := Alike.of_plain plain
    rw [halike.transcript rfl, halike.transcript rfl, hops]

open Sample in
/-- A vault that is given two keys, and told how to hash for nobody. -/
theorem Work.keylessVault_rekeyed :
    (Processor.create formType .empty).1 = .ok keylessVault.processor ∧
      (keylessVault.after [.setEncryptor .aes (.xor 1), .setMasker .name .stars,
        .setEncryptor .aes (.xor 2)]).processor.capabilities.at? (.encryptor .aes) =
          some (.encryptor (.xor 2)) ∧
      (keylessVault.transcript [.setHasher .sha512 (.hex ""), .setEncryptor .aes (.xor 1),
          .setEncryptor .rsa (.xor 2), .validate]).filter
            (·.op.concerns keylessVault.processor.plans) =
        (keylessVault.transcript [.setEncryptor .aes (.xor 1), .validate]).filter
          (·.op.concerns keylessVault.processor.plans) := by
  have compiled : PlanSet.compile formType.family formType.root = .ok formPlanSet := by cbv
  have created : (Processor.create formType .empty).1 = .ok keylessVault.processor := by
    rw [Processor.create, PlanCache.plansFor,
      show PlanCache.empty.find? formType.root.val = none from rfl, compiled]
    rfl
  have h := registry_last_writer created
  exact ⟨created, h.latest _ _, h.unrelated rfl _ _ (by simp only [List.filter]; rfl)⟩

end RecordPrivacy
