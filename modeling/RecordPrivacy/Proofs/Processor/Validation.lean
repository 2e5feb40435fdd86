import RecordPrivacy.Proofs.Processor.Runs
import RecordPrivacy.Sample.Vault

/-! Validation is decided once.

Whatever tells of the outcome of validation in a run, an answer or an event, tells of one outcome:
that of the registry as it stood when the outcome was asked for first (`validation_fixed`). What is
registered later changes nothing, and bytes that are not decoded decide nothing. -/
namespace RecordPrivacy

/-- The operation tells that this is the outcome of validation, by its answer or by an event. -/
inductive Operation.Shows (op : Operation) (w : Work) (outcome : Except ValidationError Unit) : Prop
  | answer : (op.run w).1.outcome? = some outcome → Shows op w outcome
  | event {event : Event} : event ∈ op.reports w → event.outcome? = some outcome →
      Shows op w outcome

/-- The registry as it stands when one of the operations first asks for the outcome. -/
def Work.registryAsked : Work → List Operation → Option Capabilities
  | _, [] => none
  | w, op :: rest =>
    if op.asks w.processor then some w.processor.capabilities
    else registryAsked (op.run w).2 rest

/-! ### One operation -/

namespace Session
variable (w : Work) {event : Event}

theorem askedEvents_outcome? {p : Processor} (h : event ∈ askedEvents p) :
    event.outcome? = some p.outcome := by
  obtain ⟨e, ho, rfl⟩ := mem_askedEvents h
  rw [ho]
  rfl

theorem cross_outcome? (boundary : Boundary) (record : Record) :
    (Answer.record (cross boundary record w).1).outcome? = some w.processor.outcome := by
  rw [cross_apply]
  cases w.processor.outcome with
  | error e => rfl
  | ok u =>
    simp only
    rcases performAll boundary.actions record (entered boundary w) with ⟨⟨result, outcome⟩, w₁⟩
    cases outcome <;> rfl

theorem closes_outcome? {boundary : Boundary} {result : Except ProcessingError Record}
    (h : event.Closes boundary result) : event.outcome? = (Answer.record result).outcome? := by
  cases h <;> rfl

end Session

namespace Operation
variable {op : Operation} {w : Work}

/-- The reports of an operation tell of no other outcome than the processor's. -/
theorem reports_outcome? (hasks : op.asks w.processor = true) :
    ∀ event ∈ op.reports w,
      event.outcome? = none ∨ event.outcome? = some w.processor.outcome := by
  intro event hmem
  rcases asks_iff.mp hasks with rfl | ⟨boundary, record, hcrossing⟩
  · rw [reports_validate] at hmem
    exact .inr (Session.askedEvents_outcome? hmem)
  · obtain ⟨ran, closing, tail, hreports, hcloses, hsilent⟩ := reports_crossing hcrossing
    rw [hreports] at hmem
    simp only [List.mem_cons, List.mem_append, List.mem_map] at hmem
    rcases hmem with rfl | hmem | ⟨action, -, rfl⟩ | rfl | hmem
    · exact .inl rfl
    · exact .inr (Session.askedEvents_outcome? hmem)
    · exact .inl rfl
    · exact .inr (by rw [Session.closes_outcome? hcloses, Session.cross_outcome?])
    · exact .inl (hsilent event hmem)

theorem answer_outcome? (hasks : op.asks w.processor = true) :
    (op.run w).1.outcome? = none ∨ (op.run w).1.outcome? = some w.processor.outcome := by
  rcases asks_iff.mp hasks with rfl | ⟨boundary, record, hcrossing⟩
  · exact .inr (congrArg some (Session.validate_outcome w))
  · obtain ⟨-, hanswer⟩ := run_crosses hcrossing
    rwa [Session.cross_outcome?] at hanswer

theorem shows_outcome (hasks : op.asks w.processor = true) :
    op.Shows w w.processor.outcome := by
  rcases asks_iff.mp hasks with rfl | ⟨boundary, record, hcrossing⟩
  · exact .answer (congrArg some (Session.validate_outcome w))
  · obtain ⟨ran, closing, tail, hreports, hcloses, -⟩ := reports_crossing hcrossing
    have hmem : closing ∈ op.reports w := by
      rw [hreports]
      simp
    refine .event hmem ?_
    rw [Session.closes_outcome? hcloses, Session.cross_outcome?]

/-- The operations that tell of the outcome are those that ask for it, and they tell the truth. -/
theorem shows_iff {outcome : Except ValidationError Unit} :
    op.Shows w outcome ↔ op.asks w.processor = true ∧ outcome = w.processor.outcome := by
  constructor
  · intro h
    cases hasks : op.asks w.processor with
    | false =>
      cases h with
      | answer h => cases (run_unasked hasks).2.symm.trans h
      | event hmem h => cases (reports_unasked hasks _ hmem).symm.trans h
    | true =>
      refine ⟨rfl, ?_⟩
      cases h with
      | answer h =>
        have htold := answer_outcome? hasks
        rw [h] at htold
        simpa using htold
      | event hmem h =>
        have htold := reports_outcome? hasks _ hmem
        rw [h] at htold
        simpa using htold
  · intro h
    obtain ⟨hasks, rfl⟩ := h
    exact shows_outcome hasks

end Operation

/-! ### Runs -/

namespace Work
variable (w : Work)

theorem registryAsked_append (ops : List Operation) (op : Operation) :
    w.registryAsked (ops ++ [op]) = (w.registryAsked ops).or
      (if op.asks (w.after ops).processor then some (w.after ops).processor.capabilities
        else none) := by
  induction ops generalizing w with
  | nil => rfl
  | cons first rest ih =>
    rw [List.cons_append, registryAsked, registryAsked, after]
    by_cases hasks : first.asks w.processor = true
    · rw [if_pos hasks, if_pos hasks, Option.some_or]
    · rw [if_neg hasks, if_neg hasks]
      exact ih (first.run w).2

/-- An outcome that was decided stays. -/
theorem after_kept {outcome : Except ValidationError Unit} (ops : List Operation)
    (h : w.processor.validation = some outcome) :
    (w.after ops).processor.validation = some outcome := by
  refine after_invariant (P := fun p => p.validation = some outcome) (fun op p hp => ?_) ops h
  have ho : p.outcome = outcome := by rw [Processor.outcome, hp, Option.getD_some]
  cases hasks : op.asks p <;> simp [Operation.effect, hasks, ho, hp]

theorem validation_after (unasked : w.processor.validation = none) (ops : List Operation) :
    (w.after ops).processor.validation = (w.registryAsked ops).map fun c =>
      c.validate w.processor.plans w.processor.type.overrides := by
  induction ops generalizing w with
  | nil => exact unasked
  | cons op rest ih =>
    have hrun := op.run_processor w
    rw [after, registryAsked]
    by_cases hasks : op.asks w.processor = true
    · have ho : w.processor.outcome =
          w.processor.capabilities.validate w.processor.plans w.processor.type.overrides := by
        rw [Processor.outcome, unasked, Option.getD_none]
      rw [if_pos hasks, Option.map_some, ← ho]
      refine after_kept _ rest ?_
      rw [hrun, Operation.effect, if_pos hasks]
    · rw [if_neg hasks]
      have hstill : (op.run w).2.processor.validation = none := by
        rw [hrun, Operation.effect, if_neg hasks, unasked]
      rw [ih _ hstill, hrun]
      rfl

/-- **The outcome of validation is that of the registry when it was asked for first.** It is kept
from then on, whatever is registered later, and every operation that asks for it tells of it; no
other tells of any. Bytes that are not decoded leave the processor as it was. -/
theorem validation_fixed (unasked : w.processor.validation = none) (ops : List Operation) :
    (w.after ops).processor.validation = (w.registryAsked ops).map (fun c =>
        c.validate w.processor.plans w.processor.type.overrides) ∧
      (∀ op outcome, Operation.Shows op (w.after ops) outcome ↔
        op.asks (w.after ops).processor = true ∧ ∃ c, w.registryAsked (ops ++ [op]) = some c ∧
          outcome = c.validate w.processor.plans w.processor.type.overrides) ∧
      (∀ outcome, (w.after ops).processor.validation = some outcome →
        ∀ later, (w.after (ops ++ later)).processor.validation = some outcome) ∧
      ∀ data, (w.after ops).processor.decoded? data = none →
        ((Operation.decode data).run (w.after ops)).2.processor = (w.after ops).processor ∧
          ((Operation.read data).run (w.after ops)).2.processor = (w.after ops).processor := by
  have hvalidation := w.validation_after unasked ops
  refine ⟨hvalidation, fun op outcome => ?_, fun outcome h later => ?_, fun data h => ?_⟩
  · rw [Operation.shows_iff]
    refine and_congr_right fun hasks => ?_
    obtain ⟨htype, hplans⟩ := w.after_fixed ops
    rw [registryAsked_append, if_pos hasks, Processor.outcome, hvalidation, hplans, htype]
    cases w.registryAsked ops <;> simp
  · rw [after_append]
    exact after_kept _ later h
  · obtain ⟨hdecode, hread⟩ := Operation.effect_undecoded h
    rw [Operation.run_processor, Operation.run_processor, hdecode, hread]
    exact ⟨rfl, rfl⟩

open Sample in
/-- An encryptor that comes after validation comes too late. -/
theorem keylessVault_refused :
    (keylessVault.after [.validate, .setEncryptor .aes (.xor 1)]).processor.validation =
        some (.error ⟨.encryptor, "aes", "name"⟩) ∧
      Operation.Shows (.cross .send (form "Ada" "red" "green" "late"))
        (keylessVault.after [.validate, .setEncryptor .aes (.xor 1)])
        (.error ⟨.encryptor, "aes", "name"⟩) := by
  have hvalidate : keylessVault.processor.capabilities.validate keylessVault.processor.plans
      keylessVault.processor.type.overrides = .error ⟨.encryptor, "aes", "name"⟩ := rfl
  obtain ⟨hkept, hshown, -⟩ :=
    keylessVault.validation_fixed rfl [.validate, .setEncryptor .aes (.xor 1)]
  exact ⟨hkept.trans (congrArg some hvalidate),
    (hshown _ _).mpr ⟨rfl, _, rfl, hvalidate.symm⟩⟩

end Work

end RecordPrivacy
