import RecordPrivacy.Proofs.Plan.Distinct
import RecordPrivacy.Proofs.Processor.Soundness
import RecordPrivacy.Proofs.Transform.Concealment
import RecordPrivacy.Sample.Letters

/-! Redaction has the last word.

Sending masks first and redacts afterwards. A redaction puts its literal in the place of whatever it
finds and cannot fail, so that a leaf which is sent is redacted if it is to be, else masked if it is
to be, else as it was, and sending fails just where a masker does (`send_conceals`). -/
namespace RecordPrivacy

/-- A leaf at the end of the path carries the directive. -/
def RecordType.Directs (type : RecordType) (path : List Nat) (directive : Directive) : Prop :=
  ∃ way place field shape rank,
    Site.Of type.family type.root (.directive way place field shape rank directive) ∧
      path = (Site.directive way place field shape rank directive).path

/-- The record as it is sent. -/
structure Sent (p : Processor) (value sent : Record) : Prop where
  redacted : ∀ path literal leaf, p.type.Directs path ⟨.redact, literal⟩ →
    value.resolve? path = some leaf → sent.resolve? path = some (leaf.filled literal)
  masked : ∀ path (format : MaskFormat) leaf, p.type.Directs path ⟨.mask, format.text⟩ →
    (∀ literal, ¬ p.type.Directs path ⟨.redact, literal⟩) → value.resolve? path = some leaf →
    ∃ masker leaf', p.capabilities.masker? format = some masker ∧
      sent.resolve? path = some leaf' ∧ leaf'.shape = leaf.shape ∧
      Transform.Elementwise masker.Masks leaf.elements leaf'.elements
  kept : ∀ path, (∀ text, ¬ p.type.Directs path ⟨.mask, text⟩) →
    (∀ text, ¬ p.type.Directs path ⟨.redact, text⟩) →
    (sent.at? path).map Content.surface = (value.at? path).map Content.surface

/-- The masker of a leaf refuses one of its elements. -/
def Unmaskable (p : Processor) (value : Record) : Prop :=
  ∃ path format masker leaf element, p.type.Directs path ⟨.mask, MaskFormat.text format⟩ ∧
    p.capabilities.masker? format = some masker ∧ value.resolve? path = some leaf ∧
    element ∈ leaf.elements ∧ masker.Rejects element.2

/-! ### Directives and plans -/

section
variable {p : Processor}
  (compiled : PlanSet.compile p.type.family p.type.root = .ok p.plans)
include compiled

theorem directs_of_plan {action : Action} {plan : FieldPlan}
    (hplan : plan ∈ p.plans.forAction action) :
    ∃ text, p.type.Directs plan.path ⟨action, text⟩ ∧ Denotes ⟨action, text⟩ plan.parameter := by
  obtain ⟨way, place, field, shape, rank, text, hsite, hdenotes, hat⟩ :=
    exists_directive_of_mem compiled hplan
  refine ⟨text, ⟨way, place, field, shape, rank, hsite, ?_⟩, hdenotes⟩
  rw [hat]
  rfl

theorem plan_of_directs {path : List Nat} {directive : Directive}
    (h : p.type.Directs path directive) :
    ∃ plan ∈ p.plans.forAction directive.action, plan.path = path ∧
      Denotes directive plan.parameter := by
  obtain ⟨way, place, field, shape, rank, hsite, rfl⟩ := h
  obtain ⟨parameter, hdenotes, hmem⟩ := exists_plan_of_directive compiled hsite
  exact ⟨_, hmem, rfl, hdenotes⟩

theorem bind_redact {plan : FieldPlan} (hplan : plan ∈ p.plans.forAction .redact) :
    ∃ literal, p.type.Directs plan.path ⟨.redact, literal⟩ ∧
      Transform.bind p.capabilities .redact plan.parameter = .ok (.redact literal) := by
  obtain ⟨literal, hdirects, hdenotes⟩ := directs_of_plan compiled hplan
  exact ⟨literal, hdirects, by rw [hdenotes.eq_literal]; rfl⟩

theorem bind_mask (covered : p.Covered) (masks : .mask ∉ p.type.overrides) {plan : FieldPlan}
    (hplan : plan ∈ p.plans.forAction .mask) :
    ∃ format masker, p.type.Directs plan.path ⟨.mask, MaskFormat.text format⟩ ∧
      plan.parameter = .masker format ∧ p.capabilities.masker? format = some masker ∧
      Transform.bind p.capabilities .mask plan.parameter = .ok (.mask masker) := by
  obtain ⟨text, hdirects, hdenotes⟩ := directs_of_plan compiled hplan
  obtain ⟨format, rfl, hparameter⟩ := hdenotes.eq_masker
  obtain ⟨t, hbind, -⟩ := covered.bind compiled masks hplan
  rw [hparameter] at hbind ⊢
  cases hm : p.capabilities.masker? format with
  | none => simp [Transform.bind, hm] at hbind
  | some masker => exact ⟨format, masker, hdirects, rfl, hm, by simp [Transform.bind, hm]⟩

/-! ### Two traversals -/

theorem deterministic_redact : ∀ plan ∈ p.plans.forAction .redact, ∀ t,
    Transform.bind p.capabilities .redact plan.parameter = .ok t → t.Deterministic := by
  intro plan hplan t hbind
  obtain ⟨literal, -, hredact⟩ := bind_redact compiled hplan
  cases hbind.symm.trans hredact
  exact Transform.deterministic_of_action _ (.inr (.inr rfl))

theorem answerable_redact (record : Record) :
    Answerable p.capabilities .redact (p.plans.forAction .redact) record := by
  intro plan hplan leaf _
  obtain ⟨literal, -, hredact⟩ := bind_redact compiled hplan
  exact ⟨_, hredact, fun e _ => Transform.redact_answers literal e.2⟩

variable (covered : p.Covered) (masks : .mask ∉ p.type.overrides)
include covered masks

theorem deterministic_mask : ∀ plan ∈ p.plans.forAction .mask, ∀ t,
    Transform.bind p.capabilities .mask plan.parameter = .ok t → t.Deterministic := by
  intro plan hplan t hbind
  obtain ⟨_, _, -, -, -, hmask⟩ := bind_mask compiled covered masks hplan
  cases hbind.symm.trans hmask
  exact Transform.deterministic_of_action _ (.inr (.inl rfl))

theorem not_answerable_mask_iff {value : Record} :
    ¬ Answerable p.capabilities .mask (p.plans.forAction .mask) value ↔ Unmaskable p value := by
  constructor
  · intro h
    by_contra hall
    refine h fun plan hplan leaf hleaf => ?_
    obtain ⟨format, masker, hdirects, -, hmasker, hbind⟩ :=
      bind_mask compiled covered masks hplan
    refine ⟨_, hbind, fun element helement => ?_⟩
    rcases masker.masks_or_rejects element.2 with ⟨q, hmasks⟩ | hrejects
    · exact ⟨q, hmasks.answers⟩
    · exact absurd ⟨plan.path, format, masker, leaf, element, hdirects, hmasker, hleaf, helement,
        hrejects⟩ hall
  · intro h hanswerable
    obtain ⟨path, format, masker, leaf, element, hdirects, hmasker, hleaf, helement, hrejects⟩ := h
    obtain ⟨plan, hplan, rfl, hdenotes⟩ := plan_of_directs compiled hdirects
    obtain ⟨t, hbind, hall⟩ := hanswerable plan hplan leaf hleaf
    obtain ⟨q, hanswers⟩ := hall element helement
    rw [hdenotes.unique (.masker format)] at hbind
    simp only [Transform.bind, hmasker] at hbind
    cases hbind
    exact hrejects.not_answers hanswers

/-- What a record becomes that is masked and then redacted. -/
theorem sent_of_applied {value mid sent : Record}
    (hmask : Applied (fun plan => plan.Answers p.capabilities .mask) (p.plans.forAction .mask)
      value mid)
    (hredact : Applied (fun plan => plan.Answers p.capabilities .redact)
      (p.plans.forAction .redact) mid sent) : Sent p value sent := by
  have hunredacted : ∀ path, (∀ text, ¬ p.type.Directs path ⟨.redact, text⟩) →
      (sent.at? path).map Content.surface = (mid.at? path).map Content.surface := by
    intro path hnone
    refine hredact.unreached path fun plan hplan he => ?_
    obtain ⟨text, hdirects, -⟩ := directs_of_plan compiled hplan
    exact absurd (he ▸ hdirects) (hnone text)
  refine ⟨fun path literal leaf hdirects hleaf => ?_,
    fun path format leaf hdirects hnone hleaf => ?_, fun path hunmasked hnone => ?_⟩
  · obtain ⟨plan, hplan, rfl, hdenotes⟩ := plan_of_directs compiled hdirects
    obtain ⟨masked, hmasked, hshape, hnames⟩ := hmask.exists_leaf hleaf
    obtain ⟨new, hnew, hshape', helements⟩ := hredact.reached plan hplan masked hmasked
    have hfilled : new = masked.filled literal := by
      refine Leaf.eq_filled hshape' (helements.imp fun a b hab => ⟨hab.1, ?_⟩)
      obtain ⟨t, hbind, hanswers⟩ := hab.2
      rw [hdenotes.eq_literal] at hbind
      cases hbind
      exact hanswers
    rw [hnew, hfilled, Leaf.filled_congr literal hshape hnames]
  · obtain ⟨plan, hplan, rfl, hdenotes⟩ := plan_of_directs compiled hdirects
    obtain ⟨format', masker, -, hparameter, hmasker, hbind⟩ :=
      bind_mask compiled covered masks hplan
    cases hparameter.symm.trans (hdenotes.unique (.masker format))
    obtain ⟨new, hnew, hshape, helements⟩ := hmask.reached plan hplan leaf hleaf
    refine ⟨masker, new, hmasker, ?_, hshape, helements.imp fun a b hab => ⟨hab.1, ?_⟩⟩
    · rw [Record.resolve?_of_surface (hunredacted plan.path hnone), hnew]
    · obtain ⟨t, hbind', hanswers⟩ := hab.2
      cases hbind.symm.trans hbind'
      exact Masker.mask_answers_iff.mp hanswers
  · rw [hunredacted path hnone]
    refine hmask.unreached path fun plan hplan he => ?_
    obtain ⟨text, hdirects, -⟩ := directs_of_plan compiled hplan
    exact absurd (he ▸ hdirects) (hunmasked text)

end

/-! ### Sending -/

/-- **Redaction wins on every send.** If neither masking nor redacting is overridden and no leaf has
two directives of one action, then whatever a validated processor has been through, a record that it
sends is redacted where it is to be redacted, else masked where it is to be masked, else as it was;
and it cannot be sent just if a masker refuses an element, be it redacted or not. -/
theorem Work.send_conceals {w : Work} (new : w.processor.New)
    (single : SingleDirectives w.processor.type.family w.processor.type.root)
    (masks : .mask ∉ w.processor.type.overrides) (redacts : .redact ∉ w.processor.type.overrides)
    (ops : List Operation) (valid : (w.after ops).processor.outcome = .ok ()) (value : Record) :
    (∀ sent, (Session.send value (w.after ops)).1 = .ok sent →
        Sent (w.after ops).processor value sent) ∧
      ((∃ e, (Session.send value (w.after ops)).1 = .error e) ↔
        Unmaskable (w.after ops).processor value) := by
  have hcompiled := new.compiled_after ops
  have hcovered := new.covered_after ops valid
  obtain ⟨htype, -⟩ := w.after_fixed ops
  rw [← htype] at single masks redacts
  have hmasks := nodup_paths hcompiled single .mask
  have hredacts := nodup_paths hcompiled single .redact
  have hmasked := deterministic_mask hcompiled hcovered masks
  have hsend : ∀ sent, (Session.send value (w.after ops)).1 = .ok sent ↔ _ :=
    fun sent => Session.cross_pair (w.after ops) rfl masks redacts
  constructor
  · intro sent h
    obtain ⟨-, mid, _, _, _, _, hmask, hredact⟩ := (hsend sent).mp h
    exact sent_of_applied hcompiled hcovered masks (traverse_applied hmasks hmasked hmask)
      (traverse_applied hredacts (deterministic_redact hcompiled) hredact)
  · -- The redaction gets through whatever the mask has left.
    have hok : (∃ sent, (Session.send value (w.after ops)).1 = .ok sent) ↔
        Answerable (w.after ops).processor.capabilities .mask
          ((w.after ops).processor.plans.forAction .mask) value := by
      constructor
      · intro h
        obtain ⟨sent, h⟩ := h
        obtain ⟨-, mid, _, _, _, _, hmask, -⟩ := (hsend sent).mp h
        exact answerable_of_traverse hmasks hmasked hmask
      · intro h
        obtain ⟨mid, n, supply, hmask⟩ := traverse_succeeds hmasks h (w.after ops).entropy
        obtain ⟨sent, m, supply', hredact⟩ :=
          traverse_succeeds hredacts (answerable_redact hcompiled mid) supply
        exact ⟨sent, (hsend sent).mpr ⟨valid, mid, n, supply, m, supply', hmask, hredact⟩⟩
    rw [← not_answerable_mask_iff hcompiled hcovered masks, ← hok]
    cases (Session.send value (w.after ops)).1 <;> simp

open Sample in
/-- A letter is sent with its sender redacted and its reader masked, but not without a sender. -/
theorem Work.letter_concealed :
    Sent postOffice.processor (letter "Ada" "Eve" [7]) (letter "-" "E**" (Utf8.encode "+")) ∧
      Unmaskable postOffice.processor (letter "" "Eve" [7]) := by
  have new : postOffice.processor.New := ⟨by cbv, rfl⟩
  have single : SingleDirectives letterFamily 0 := Family.Distinct.single ⟨by decide, by decide⟩
  have hsends := send_conceals new single (by decide) (by decide) [] rfl
  exact ⟨(hsends _).1 _ rfl, (hsends _).2.mp ⟨_, rfl⟩⟩

end RecordPrivacy
