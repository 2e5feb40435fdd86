import RecordPrivacy.Proofs.Processor.Soundness
import RecordPrivacy.Proofs.Traversal.Points

/-! Errors of transforms tell what they are of.

An operation that fails in a transform fails at one point of one action, and that action is one of
the boundary that is crossed. The kind of the error is that of the action, except where decryption
has come upon text that is no base64 (`Work.failure_classified`). -/
namespace RecordPrivacy

/-! ### Operations that fail in a transform -/

def Answer.transformError? : Answer → Option TransformError
  | .record (.error (.transform e)) => some e
  | .bytes (.error (.transform e)) => some e
  | _ => none

theorem Answer.transformError?_record {result : Except ProcessingError Record} {e : TransformError} :
    (Answer.record result).transformError? = some e ↔ result = .error (.transform e) := by
  rcases result with (_ | _ | _) | _ <;> simp [transformError?]

theorem Answer.transformError?_bytes {result : Except ProcessingError Bytes} {e : TransformError} :
    (Answer.bytes result).transformError? = some e ↔ result = .error (.transform e) := by
  rcases result with (_ | _ | _) | _ <;> simp [transformError?]

/-- An operation that crosses the boundary answers or, if it keeps its failures to itself, reports
that a transform has failed. -/
def Operation.Fails (op : Operation) (w : Work) (boundary : Boundary) (e : TransformError) : Prop :=
  (∃ record, op.crossing? w.processor = some (boundary, record)) ∧
    ((op.run w).1.transformError? = some e ∨ .failed boundary (.transform e) ∈ op.reports w)

/-- It is the crossing that fails. -/
theorem Operation.cross_of_fails {op : Operation} {w : Work} {boundary : Boundary}
    {e : TransformError} (h : op.Fails w boundary e) :
    ∃ record, op.crossing? w.processor = some (boundary, record) ∧
      (Session.cross boundary record w).1 = .error (.transform e) := by
  obtain ⟨⟨record, hcrossing⟩, hanswer | hreport⟩ := h
  · refine ⟨record, hcrossing, ?_⟩
    cases op with
    | cross boundary' record' =>
      cases hcrossing
      exact Answer.transformError?_record.mp hanswer
    | decode data =>
      obtain ⟨_, hdecoded, hcrossing⟩ := Option.map_eq_some_iff.mp hcrossing
      cases hcrossing
      rw [← (Session.inbound_decoded w .receive hdecoded).1]
      exact Answer.transformError?_record.mp hanswer
    | read data =>
      obtain ⟨_, hdecoded, hcrossing⟩ := Option.map_eq_some_iff.mp hcrossing
      cases hcrossing
      rw [← (Session.inbound_decoded w .load hdecoded).1]
      exact Answer.transformError?_record.mp hanswer
    | write record' =>
      cases hcrossing
      exact Session.cross_of_outbound_error w (Answer.transformError?_bytes.mp hanswer)
    | encode record' =>
      cases hcrossing
      exact Session.cross_of_outbound_error w (Answer.transformError?_bytes.mp hanswer)
    | _ => cases hanswer
  · exact cross_of_failed hreport

/-! ### Actions that fail -/

/-- The point at which an action fails, in its override or else in the traversal of its plans. -/
inductive FailsAt (w : Work) (action : Action) (record : Record) (e : TransformError) :
    FailurePoint → Prop
  | override {left : Record} {x : CapabilityError} {supply : Entropy} :
      action ∈ w.processor.type.overrides →
      w.processor.type.runOverride action w.processor.capabilities record w.entropy =
        ((left, some (.error x)), supply) →
      e = ⟨.ofAction action, action, w.processor.typeName, .capability x⟩ →
      FailsAt w action record e .override
  | traversal {start : Record} {supply : Entropy} {point : FailurePoint} :
      Traverses w action record start supply →
      StopsAt w.processor.capabilities action (w.processor.plans.forAction action) start supply e
        point →
      FailsAt w action record e point

section
variable {w w' : Work} {action : Action} {record result : Record} {e : TransformError}
  {point point' : FailurePoint}

theorem perform_failsAt (h : Session.perform action record w = ((result, .error e), w')) :
    ∃ point, FailsAt w action record e point := by
  rcases perform_error h with ⟨ha, x, supply, hrun, he⟩ | ⟨start, supply, supply', hstart, ht⟩
  · exact ⟨.override, .override ha hrun he⟩
  · obtain ⟨point, hstops⟩ := traverse_stopsAt ht
    exact ⟨point, .traversal hstart hstops⟩

/-- Plans are carried out only if no override was. -/
theorem Traverses.not_overridden {start left : Record} {supply supply' : Entropy}
    {ran : Except CapabilityError Unit} (h : Traverses w action record start supply)
    (ha : action ∈ w.processor.type.overrides) :
    w.processor.type.runOverride action w.processor.capabilities record w.entropy ≠
      ((left, some ran), supply') := by
  intro hrun
  cases h with
  | unlisted hnot => exact hnot ha
  | declined _ hnone => cases hnone.symm.trans hrun

theorem Traverses.unique {start start' : Record} {supply supply' : Entropy}
    (h : Traverses w action record start supply) (h' : Traverses w action record start' supply') :
    start = start' ∧ supply = supply' := by
  cases h with
  | unlisted hnot =>
    cases h' with
    | unlisted _ => exact ⟨rfl, rfl⟩
    | declined ha _ => exact absurd ha hnot
  | declined ha hrun =>
    cases h' with
    | unlisted hnot => exact absurd ha hnot
    | declined _ hrun' =>
      cases hrun.symm.trans hrun'
      exact ⟨rfl, rfl⟩

/-- An action fails at one point. -/
theorem FailsAt.unique (h : FailsAt w action record e point)
    (h' : FailsAt w action record e point') : point = point' := by
  cases h with
  | override ha hrun _ =>
    cases h' with
    | override _ _ _ => rfl
    | traversal hstart _ => exact absurd hrun (hstart.not_overridden ha)
  | traversal hstart hstops =>
    cases h' with
    | override ha hrun _ => exact absurd hrun (hstart.not_overridden ha)
    | traversal hstart' hstops' =>
      obtain ⟨rfl, rfl⟩ := hstart.unique hstart'
      exact hstops.unique hstops'

/-- The plans of an action have parameters of the action, so that a transform that is bound to one
is of the action, and a literal is always bound. -/
theorem StopsAt.classified {c : Capabilities} {plans : List FieldPlan} {start : Record}
    {supply : Entropy}
    (denoted : ∀ plan ∈ plans, ∃ text, Denotes ⟨action, text⟩ plan.parameter)
    (h : StopsAt c action plans start supply e point) :
    e.action = action ∧ Classified e point ∧ point ≠ .override := by
  cases h with
  | plan hk _ _ _ hbind he =>
    obtain ⟨text, hdenotes⟩ := denoted _ (List.mem_of_getElem? hk)
    subst he
    refine ⟨rfl, Classified.of_action nofun fun hredact => ?_, nofun⟩
    subst hredact
    rw [hdenotes.eq_literal] at hbind
    cases hbind
  | element hk _ _ _ hbind _ _ hp he =>
    obtain ⟨text, hdenotes⟩ := denoted _ (List.mem_of_getElem? hk)
    have haction := Transform.action_of_bind hdenotes hbind
    have hrefusal := (Transform.piece_error_iff _ _ _ _).mp (congrArg Prod.fst hp)
    subst he
    rw [← haction]
    exact ⟨rfl, hrefusal.classified _, nofun⟩

theorem FailsAt.classified (compiled : PlanSet.compile w.processor.type.family
      w.processor.type.root = .ok w.processor.plans) (h : FailsAt w action record e point) :
    e.action = action ∧ Classified e point ∧
      (point = .override → action ∈ w.processor.type.overrides) := by
  cases h with
  | override ha _ he =>
    subst he
    exact ⟨rfl, Classified.of_action nofun fun _ => rfl, fun _ => ha⟩
  | traversal _ hstops =>
    have hdenoted : ∀ plan ∈ w.processor.plans.forAction action,
        ∃ text, Denotes ⟨action, text⟩ plan.parameter := by
      intro plan hp
      obtain ⟨_, _, _, _, _, text, -, hdenotes, -⟩ := exists_directive_of_mem compiled hp
      exact ⟨text, hdenotes⟩
    obtain ⟨haction, hclassified, hplans⟩ := hstops.classified hdenoted
    exact ⟨haction, hclassified, fun h => absurd h hplans⟩

end

/-! ### Runs -/

/-- **Errors of transforms are classified.** After whatever operations, an operation that fails in a
transform at a boundary does so in one of the boundary's actions, which is the one that the error
names. It fails at one point of that action, which decides the kind of the error; and only an
override fails to redact. -/
theorem Work.failure_classified {w : Work} (new : w.processor.New) (ops : List Operation)
    {op : Operation} {boundary : Boundary} {e : TransformError}
    (h : op.Fails (w.after ops) boundary e) :
    e.boundary = boundary ∧ e.action ∈ boundary.actions ∧
      (e.kind = .redactFailed → .redact ∈ w.processor.type.overrides) ∧
      ∃ record mid w₁,
        op.crossing? (w.after ops).processor = some (boundary, record) ∧
        Session.Reaches (Session.entered boundary (w.after ops)) boundary.actions record e.action
          mid w₁ ∧
        (∃! point, FailsAt w₁ e.action mid e point) ∧
        ∀ point, FailsAt w₁ e.action mid e point → Classified e point := by
  obtain ⟨record, hcrossing, hfailed⟩ := Operation.cross_of_fails h
  obtain ⟨-, _, _, hall⟩ := Session.of_cross_error _ hfailed
  obtain ⟨action, mid, w₁, hreaches, hperform⟩ := Session.performAll_error hall
  obtain ⟨point, hpoint⟩ := perform_failsAt hperform
  have hprocessor : w₁.processor = (w.after ops).processor.settled := by
    rw [hreaches.processor, Session.entered_processor]
  have hcompiled : PlanSet.compile w₁.processor.type.family w₁.processor.type.root =
      .ok w₁.processor.plans := by
    rw [hprocessor]
    exact new.compiled_after ops
  have hlisted : w₁.processor.type.overrides = w.processor.type.overrides := by
    rw [hprocessor]
    exact congrArg RecordType.overrides (w.after_fixed ops).1
  obtain ⟨rfl, hclassified, hoverride⟩ := hpoint.classified hcompiled
  have hmem : e.action ∈ boundary.actions := by
    obtain ⟨done, rest, _, hactions, -⟩ := hreaches
    rw [hactions]
    simp
  refine ⟨(Action.mem_actions_boundary _ _).mp hmem, hmem, fun hredact => ?_, record, mid, w₁,
    hcrossing, hreaches, ⟨point, hpoint, fun other hother => hother.unique hpoint⟩,
    fun other hother => hother.unique hpoint ▸ hclassified⟩
  have haction : e.action = .redact := by
    have hkind := hclassified.otherwise (by rw [hredact]; decide)
    rw [hredact] at hkind
    cases ha : e.action <;> rw [ha] at hkind <;> first | rfl | cases hkind
  rw [← hlisted, ← haction]
  exact hoverride (hclassified.redaction hredact)

open Sample in
/-- A name that was never encrypted is refused for its encoding. -/
theorem Work.vault_failure_classified :
    ∃ (w₁ : Work) (mid : Record) (encryptor : Encryptor) (value : String),
      FailsAt w₁ .decrypt mid ⟨.encodingInvalid, .decrypt, "name", .base64 (.symbol 63 0)⟩
          (.element (.decrypt encryptor) (.text value)) ∧
        ∀ data, Base64.encode data ≠ value := by
  have new : vault.processor.New := ⟨by cbv, rfl⟩
  have hfails : (Operation.cross .load (form "?" "" "" "")).Fails (vault.after [.validate]) .load
      ⟨.encodingInvalid, .decrypt, "name", .base64 (.symbol 63 0)⟩ := ⟨⟨_, rfl⟩, .inl rfl⟩
  obtain ⟨-, -, -, _, mid, w₁, -, -, ⟨point, hpoint, -⟩, hclassified⟩ :=
    failure_classified new [.validate] hfails
  obtain ⟨encryptor, value, rfl, hnone⟩ := (hclassified point hpoint).encoding.mp rfl
  exact ⟨w₁, mid, encryptor, value, hpoint, hnone⟩

end RecordPrivacy
