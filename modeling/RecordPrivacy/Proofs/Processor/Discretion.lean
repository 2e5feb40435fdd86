import RecordPrivacy.Proofs.Mask.Visible
import RecordPrivacy.Proofs.Processor.Log
import RecordPrivacy.Proofs.Processor.Redaction
import RecordPrivacy.Proofs.Record.Agreement

/-! What the log gives away of a record.

Two runs are compared that take different records of one type across a boundary. Without overrides,
what is logged of a crossing that succeeds depends on which optional records there are, and on
nothing else of the record (`log_of_ok`, `present_congr`). What is logged of one that fails to mask
depends on the element at which it does and on what its mask would show of the text there
(`Work.RefusesAt.told`). -/
namespace RecordPrivacy

/-! ### Types without overrides -/

namespace Session
variable {w : Work}

/-- No override runs. -/
theorem overridden_of_plain (plain : w.processor.type.overrides = []) (actions : List Action)
    (record : Record) : overridden (turns w actions record) = [] := by
  induction actions generalizing record w with
  | nil => rfl
  | cons action rest ih =>
    have hnone : (⟨action, record, w⟩ : Turn).override? = none := by
      rw [Turn.override?, plain]
      exact if_neg List.not_mem_nil
    have hkept := perform_processor w action record
    rw [turns]
    rcases hp : perform action record w with ⟨⟨mid, outcome⟩, w₁⟩
    rw [hp] at hkept
    have hplain : w₁.processor.type.overrides = [] := by
      rw [show w₁.processor = w.processor from hkept, plain]
    cases outcome with
    | error e => simp [overridden, hnone]
    | ok n => simpa [overridden, hnone] using ih hplain mid

/-- The number of plans of the actions that lead to a leaf of the record. -/
def leaves (plans : PlanSet) (record : Record) (actions : List Action) : Nat :=
  (actions.map fun action => (plans.forAction action).countP (·.present record)).sum

/-- Actions that succeed do not change which plans lead to a leaf. -/
theorem fields_of_plain {w' : Work} (plain : w.processor.type.overrides = [])
    {actions : List Action} {record result : Record} {n : Nat}
    (h : performAll actions record w = ((result, .ok n), w')) :
    ((turns w actions record).map Turn.fields).sum = leaves w.processor.plans record actions := by
  induction actions generalizing record w n with
  | nil => rfl
  | cons action rest ih =>
    obtain ⟨mid, n, w₁, m, hfirst, hrest, -⟩ := performAll_cons_ok.mp h
    have hunlisted : action ∉ w.processor.type.overrides := by simp [plain]
    have hcount := (perform_turn w action record).2 mid n w₁ hfirst
    have hkept := perform_processor w action record
    rw [hfirst] at hkept
    obtain ⟨supply, ht, -⟩ := (perform_ok_iff hunlisted).mp hfirst
    obtain ⟨htotal, hpresent⟩ := traverse_count ht
    have hlater : leaves w.processor.plans mid rest = leaves w.processor.plans record rest := by
      simp only [leaves, hpresent]
    rw [turns, hfirst, List.map_cons, List.sum_cons, ← hcount, htotal,
      ih (by rw [show w₁.processor = w.processor from hkept, plain]) hrest,
      show w₁.processor = w.processor from hkept, hlater]
    rfl

end Session

namespace Operation
variable {op : Operation} {w : Work} {boundary : Boundary} {record : Record}

theorem overridden_turnsAt (plain : w.processor.type.overrides = []) :
    overridden (Session.turnsAt w boundary record) = [] := by
  rw [Session.turnsAt]
  cases w.processor.outcome with
  | error e => rfl
  | ok u =>
    refine Session.overridden_of_plain ?_ _ _
    rw [Session.entered_processor]
    exact plain

/-- What is logged of a crossing that succeeds. -/
theorem log_of_ok {crossed : Record} (plain : w.processor.type.overrides = [])
    (h : op.crossing? w.processor = some (boundary, record))
    (hcross : (Session.cross boundary record w).1 = .ok crossed) :
    op.log w = .started w.processor.typeName boundary :: (w.processor.askedLog ++
      .closed w.processor.typeName boundary
          (Session.leaves w.processor.plans record boundary.actions) (.ok crossed) ::
        op.codaLog w.processor (.ok crossed)) := by
  obtain ⟨hvalid, n, w₁, hall⟩ := (Session.cross_ok_iff w).mp hcross
  have hfields : ((Session.turnsAt w boundary record).map Turn.fields).sum =
      Session.leaves w.processor.plans record boundary.actions := by
    rw [Session.turnsAt, hvalid]
    refine (Session.fields_of_plain ?_ hall).trans ?_
    · rw [Session.entered_processor]
      exact plain
    · rw [Session.entered_processor]
      rfl
  rw [log_crossing h, overridden_turnsAt plain, hcross, hfields]
  rfl

/-- What is logged of a crossing that fails. -/
theorem log_of_error {e : ProcessingError} (plain : w.processor.type.overrides = [])
    (h : op.crossing? w.processor = some (boundary, record))
    (hcross : (Session.cross boundary record w).1 = .error e) :
    op.log w = .started w.processor.typeName boundary ::
      (w.processor.askedLog ++ [.closed w.processor.typeName boundary 0 (.error e)]) := by
  have hcoda : op.codaLog w.processor (.error e) = [] := by
    cases op <;> rfl
  rw [log_crossing h, overridden_turnsAt plain, hcross, hcoda]
  rfl

end Operation

/-! ### Records with the same optional records -/

/-- The same optional records are absent. -/
def Record.Fellow (a b : Record) : Prop :=
  ∀ path, a.at? path = some (.optional none) ↔ b.at? path = some (.optional none)

/-- A compiled plan leads to a leaf of both records or of neither. -/
theorem present_congr {n : Nat} {family : Family n} {root : Fin n} {plans : PlanSet} {a b : Record}
    (compiled : PlanSet.compile family root = .ok plans) (ha : a.Agrees family root)
    (hb : b.Agrees family root) (fellow : a.Fellow b) {action : Action} {plan : FieldPlan}
    (hplan : plan ∈ plans.forAction action) : plan.present a = plan.present b := by
  have hnone : a.resolve? plan.path = none ↔ b.resolve? plan.path = none := by
    rw [(resolve?_compiled compiled ha action plan hplan).1,
      (resolve?_compiled compiled hb action plan hplan).1]
    exact exists_congr fun i => and_congr_right fun _ => fellow _
  rw [FieldPlan.present, FieldPlan.present, Bool.eq_iff_iff, Option.isSome_iff_ne_none,
    Option.isSome_iff_ne_none]
  exact not_congr hnone

theorem leaves_congr {n : Nat} {family : Family n} {root : Fin n} {plans : PlanSet} {a b : Record}
    (compiled : PlanSet.compile family root = .ok plans) (ha : a.Agrees family root)
    (hb : b.Agrees family root) (fellow : a.Fellow b) (actions : List Action) :
    Session.leaves plans a actions = Session.leaves plans b actions := by
  have hcount : ∀ action, (plans.forAction action).countP (·.present a) =
      (plans.forAction action).countP (·.present b) :=
    fun action => List.countP_congr fun plan hplan => by
      rw [present_congr compiled ha hb fellow hplan]
  simp only [Session.leaves, hcount]

/-! ### Operations that succeed -/

namespace Operation

/-- Two operations that take records across a boundary in the same way. -/
inductive Kindred : Operation → Operation → Prop
  | cross (boundary : Boundary) (a b : Record) : Kindred (.cross boundary a) (.cross boundary b)
  | decode (data data' : Bytes) : Kindred (.decode data) (.decode data')
  | read (data data' : Bytes) : Kindred (.read data) (.read data')
  | write (a b : Record) : Kindred (.write a) (.write b)
  | encode (a b : Record) : Kindred (.encode a) (.encode b)

/-- The operation returns a record, or bytes. -/
def Succeeds (op : Operation) (w : Work) : Prop :=
  (∃ record, (op.run w).1 = .record (.ok record)) ∨ ∃ data, (op.run w).1 = .bytes (.ok data)

def encodes : Operation → Bool
  | .write _ => true
  | .encode _ => true
  | _ => false

end Operation

/-- The record without any number of bytes. -/
def LogRecord.withoutSize (r : LogRecord) : LogRecord :=
  { r with values := r.values.filter fun value => value.1 ≠ "bytes" }

namespace Operation
variable {op op' : Operation} {w : Work} {boundary : Boundary} {record : Record}

theorem codedLog_of_marshalled {p : Processor} {crossed : Record} {data : Bytes}
    (h : p.marshalled crossed = .ok data) (boundary : Boundary) :
    p.codedLog boundary (.ok crossed) = [.coded p.typeName boundary (.ok data)] := by
  rw [Processor.marshalled] at h
  rw [Processor.codedLog]
  cases hcodec : p.codec with
  | none => simp [hcodec] at h
  | some codec =>
    cases hencode : codec.encode crossed with
    | error fault => simp [hcodec, hencode, Except.mapError] at h
    | ok data' =>
      simp only [hcodec, hencode, Except.mapError] at h
      cases h
      simp [hencode]

/-- An operation that succeeds has taken its record across, and if it encodes then the codec has
answered with bytes. -/
theorem Succeeds.crossed (h : op.Succeeds w)
    (hcrossing : op.crossing? w.processor = some (boundary, record)) :
    ∃ crossed, (Session.cross boundary record w).1 = .ok crossed ∧
      (op.encodes = false → op.codaLog w.processor (.ok crossed) = []) ∧
      (op.encodes = true → ∃ data, op.codaLog w.processor (.ok crossed) =
        [.coded w.processor.typeName boundary (.ok data)]) := by
  have hanswer := (run_coda hcrossing).1
  rw [Succeeds, hanswer] at h
  cases hcross : (Session.cross boundary record w).1 with
  | error e =>
    rw [hcross] at h
    cases op <;> simp [answering, Except.bind] at h
  | ok crossed =>
    rw [hcross] at h
    refine ⟨crossed, rfl, fun hplain => ?_, fun hencodes => ?_⟩
    · cases op with
      | loggable value => simp [answering] at h
      | write value => cases hplain
      | encode value => cases hplain
      | _ => rfl
    · cases op with
      | write value =>
        cases hcrossing
        obtain ⟨data, hdata⟩ := h.resolve_left nofun
        exact ⟨data, codedLog_of_marshalled (Answer.bytes.inj hdata) .store⟩
      | encode value =>
        cases hcrossing
        obtain ⟨data, hdata⟩ := h.resolve_left nofun
        exact ⟨data, codedLog_of_marshalled (Answer.bytes.inj hdata) .send⟩
      | _ => cases hencodes

theorem Kindred.encodes_eq (h : op.Kindred op') : op'.encodes = op.encodes := by
  cases h <;> rfl

/-- Two crossings that succeed are logged alike. -/
theorem log_alike {w' : Work} {a b : Record}
    (compiled : PlanSet.compile w.processor.type.family w.processor.type.root =
      .ok w.processor.plans)
    (plain : w.processor.type.overrides = []) (same : w'.processor = w.processor)
    (ha : a.Agrees w.processor.type.family w.processor.type.root)
    (hb : b.Agrees w.processor.type.family w.processor.type.root) (fellow : a.Fellow b)
    (kin : op.Kindred op') (hop : op.crossing? w.processor = some (boundary, a))
    (hop' : op'.crossing? w.processor = some (boundary, b)) (h : op.Succeeds w)
    (h' : op'.Succeeds w') :
    (op.log w).map LogRecord.withoutSize = (op'.log w').map LogRecord.withoutSize ∧
      (op.encodes = false → op.log w = op'.log w') := by
  rw [← same] at hop'
  obtain ⟨crossed, hcross, hempty, hcoded⟩ := h.crossed hop
  obtain ⟨crossed', hcross', hempty', hcoded'⟩ := h'.crossed hop'
  rw [kin.encodes_eq] at hempty' hcoded'
  rw [log_of_ok plain hop hcross, log_of_ok (same ▸ plain) hop' hcross', same,
    leaves_congr compiled ha hb fellow]
  rw [same] at hempty' hcoded'
  cases hencodes : op.encodes with
  | false =>
    rw [hempty hencodes, hempty' hencodes]
    exact ⟨rfl, fun _ => rfl⟩
  | true =>
    obtain ⟨data, hdata⟩ := hcoded hencodes
    obtain ⟨data', hdata'⟩ := hcoded' hencodes
    rw [hdata, hdata']
    refine ⟨?_, nofun⟩
    simp only [List.map_cons, List.map_append]
    rfl

end Operation

/-! ### Texts that are refused -/

/-- The piece holds the text, as it is or as UTF-8. -/
inductive Piece.Holds : Piece → String → Prop
  | text (value : String) : Holds (.text value) value
  | bytes {value : Bytes} {text : String} : Utf8.decode value = .ok text → Holds (.bytes value) text

/-- The record cannot be sent, since the mask of a plan refuses an element of its leaf. -/
structure Work.RefusesAt (w : Work) (record : Record) (e : TransformError) (plan : FieldPlan)
    (element : Element) (p : Piece) : Prop where
  failed : (Session.send record w).1 = .error (.transform e)
  point : ∃ k n j mid result leaf leaf' supply supply',
    (w.processor.plans.forAction .mask)[k]? = some plan ∧
    traverse w.processor.capabilities .mask ((w.processor.plans.forAction .mask).take k) record
      w.entropy = ((mid, .ok n), supply) ∧
    plan.run w.processor.capabilities .mask mid supply = ((result, .error e), supply') ∧
    record.resolve? plan.path = some leaf ∧ leaf.elements[j]? = some (element, p) ∧
    BrokenOff w.processor.capabilities .mask plan leaf supply j leaf' e supply'

section
variable {p : Processor}
  (compiled : PlanSet.compile p.type.family p.type.root = .ok p.plans)
  (maskers : ∀ format, p.capabilities.masker? format = some (Masker.builtin format))
include compiled maskers

theorem bind_builtin {plan : FieldPlan} (hplan : plan ∈ p.plans.forAction .mask) :
    ∃ format, plan.parameter = .masker format ∧
      Transform.bind p.capabilities .mask plan.parameter = .ok (.mask (Masker.builtin format)) := by
  obtain ⟨_, -, hdenotes⟩ := directs_of_plan compiled hplan
  obtain ⟨format, -, hparameter⟩ := hdenotes.eq_masker
  exact ⟨format, hparameter, by rw [hparameter, Transform.bind, maskers]⟩

end

/-- All that the error tells: the element, and why the mask of the plan refuses the text there. -/
theorem Work.RefusesAt.told {w : Work} {record : Record} {e : TransformError} {plan : FieldPlan}
    {element : Element} {p : Piece} {s : String} (h : w.RefusesAt record e plan element p)
    (compiled : PlanSet.compile w.processor.type.family w.processor.type.root =
      .ok w.processor.plans)
    (maskers : ∀ format, w.processor.capabilities.masker? format = some (Masker.builtin format))
    (holds : p.Holds s) :
    ∃ format x, plan.parameter = .masker format ∧ (Masker.builtin format).mask s = .error x ∧
      e = ⟨.maskFailed, .mask, plan.name ++ element.suffix, .capability x⟩ := by
  obtain ⟨_, _, _, _, _, _, _, _, _, hk, -, -, -, helement, hoff⟩ := h.point
  obtain ⟨format, hparameter, hbind⟩ := bind_builtin compiled maskers (List.mem_of_getElem? hk)
  cases hoff with
  | unbound hnone => cases hbind.symm.trans hnone
  | refused hbind' _ _ _ hat _ hrefusal =>
    cases hbind.symm.trans hbind'
    obtain ⟨element', helement', rfl⟩ := Leaf.elementAt_iff.mp hat
    cases helement.symm.trans helement'
    refine ⟨format, ?_⟩
    cases hrefusal with
    | maskText hx =>
      cases holds
      exact ⟨_, hparameter, hx, rfl⟩
    | maskBytes hdecode hx =>
      cases holds with
      | bytes hdecode' =>
        cases hdecode.symm.trans hdecode'
        exact ⟨_, hparameter, hx, rfl⟩
    | maskEncoding hdecode =>
      cases holds with
      | bytes hdecode' => cases hdecode.symm.trans hdecode'

/-- A record that cannot be sent is refused somewhere: no redaction fails. -/
theorem Work.exists_refusesAt {w : Work} {record : Record} {e : TransformError}
    (compiled : PlanSet.compile w.processor.type.family w.processor.type.root =
      .ok w.processor.plans)
    (plain : w.processor.type.overrides = [])
    (maskers : ∀ format, w.processor.capabilities.masker? format = some (Masker.builtin format))
    (single : SingleDirectives w.processor.type.family w.processor.type.root)
    (h : (Session.send record w).1 = .error (.transform e)) :
    ∃ plan element p, w.RefusesAt record e plan element p := by
  obtain ⟨-, _, _, hall⟩ := Session.of_cross_error w h
  obtain ⟨action, mid, w₁, hreaches, hperform⟩ := Session.performAll_error hall
  have hprocessor : w₁.processor = w.processor.settled := by
    rw [hreaches.processor, Session.entered_processor]
  have hunlisted : action ∉ w₁.processor.type.overrides := by
    rw [hprocessor]
    exact plain ▸ List.not_mem_nil
  obtain ⟨supply', ht⟩ : ∃ supply', traverse w.processor.capabilities action
      (w.processor.plans.forAction action) mid w₁.entropy = ((_, .error e), supply') := by
    rw [Session.perform_plans w₁ mid hunlisted, Session.draw_apply, hprocessor] at hperform
    exact ⟨_, Prod.ext (Prod.mk.inj hperform).1 rfl⟩
  obtain ⟨done, rest, n, hactions, hdone⟩ := hreaches
  rcases done with _ | ⟨first, done⟩
  · obtain ⟨rfl, -⟩ := List.cons.inj hactions
    cases hdone
    rw [Session.entered_entropy] at ht
    obtain ⟨k, plan, mid, n, supply, hk, hbefore, hplan⟩ := traverse_error ht
    obtain ⟨j, hfailed⟩ := failedAt (nodup_paths compiled single .mask) hk hbefore hplan
    obtain ⟨plan', leaf, leaf', mid', n', supply', hk', hbefore', hplan', hleaf, -, hoff⟩ :=
      hfailed.broken
    obtain ⟨format, -, hbind⟩ := bind_builtin compiled maskers (List.mem_of_getElem? hk')
    cases hoff with
    | unbound hnone => cases hbind.symm.trans hnone
    | refused hbind' hshape hvisit hdrop hat hp hrefusal =>
      obtain ⟨element, helement, rfl⟩ := Leaf.elementAt_iff.mp hat
      exact ⟨plan', element, _, h, _, _, _, _, _, _, _, _, _, hk', hbefore', hplan', hleaf, helement,
        .refused hbind' hshape hvisit hdrop hat hp hrefusal⟩
  · -- It would be the turn of the redaction.
    obtain rfl : action = .redact := by
      rcases done with _ | ⟨second, done⟩
      · exact (List.cons.inj (List.cons.inj hactions).2).1.symm
      · have hlength := congrArg List.length hactions
        simp [Boundary.actions] at hlength
    obtain ⟨_, _, _, hok⟩ := traverse_succeeds (nodup_paths compiled single .redact)
      (answerable_redact compiled mid) w₁.entropy
    cases ht.symm.trans hok

/-! ### Two runs -/

/-- **The log gives nothing away.** Two records of a type without overrides, with the same optional
records in them, cross a boundary from sessions whose processors are in the same state. If both get
across then the logs are the same, but for the number of bytes that they are encoded as. And if the
built-in masks refuse both on sending, at the same element and with texts there that look the same
through the mask, then the logs are the same as well; there is no other way to fail in sending if no
leaf has two directives of one action. -/
theorem Work.log_discreet {w w' : Work}
    (compiled : PlanSet.compile w.processor.type.family w.processor.type.root =
      .ok w.processor.plans)
    (plain : w.processor.type.overrides = []) (same : w'.processor = w.processor) {a b : Record}
    (ha : a.Agrees w.processor.type.family w.processor.type.root)
    (hb : b.Agrees w.processor.type.family w.processor.type.root) (fellow : a.Fellow b) :
    (∀ (op op' : Operation) boundary, op.Kindred op' →
      op.crossing? w.processor = some (boundary, a) →
      op'.crossing? w.processor = some (boundary, b) → op.Succeeds w → op'.Succeeds w' →
        (op.log w).map LogRecord.withoutSize = (op'.log w').map LogRecord.withoutSize ∧
          (op.encodes = false → op.log w = op'.log w')) ∧
    ((∀ format, w.processor.capabilities.masker? format = some (Masker.builtin format)) →
      (∀ e e' plan element p q s t, w.RefusesAt a e plan element p →
        w'.RefusesAt b e' plan element q → p.Holds s → q.Holds t →
        (∀ format, plan.parameter = .masker format →
          format.visible s.toList = format.visible t.toList) →
        ∀ op op' : Operation, op.crossing? w.processor = some (.send, a) →
          op'.crossing? w.processor = some (.send, b) → op.log w = op'.log w') ∧
      (SingleDirectives w.processor.type.family w.processor.type.root →
        ∀ e, (Session.send a w).1 = .error (.transform e) →
          ∃ plan element p, w.RefusesAt a e plan element p)) := by
  refine ⟨fun op op' boundary kin hop hop' h h' => Operation.log_alike compiled plain same ha hb
    fellow kin hop hop' h h', fun maskers => ⟨?_, fun single e h =>
      exists_refusesAt compiled plain maskers single h⟩⟩
  intro e e' plan element p q s t h h' hs ht visible op op' hop hop'
  obtain ⟨format, x, hparameter, hx, rfl⟩ := h.told compiled maskers hs
  obtain ⟨format', x', hparameter', hx', rfl⟩ :=
    h'.told (same ▸ compiled) (same ▸ maskers) ht
  cases hparameter.symm.trans hparameter'
  rw [Masker.builtin_alike format s t (visible format hparameter)] at hx
  cases hx.symm.trans hx'
  rw [← same] at hop'
  rw [Operation.log_of_error plain hop h.failed, Operation.log_of_error (same ▸ plain) hop' h'.failed,
    same]

namespace Sample

theorem letter_agrees (sender reader : String) (stamp : Bytes) :
    (letter sender reader stamp).Agrees letterFamily 0 := by
  refine Record.agrees_iff.mpr fun field hfield => ?_
  simp only [letterFamily, List.mem_cons, List.not_mem_nil, or_false] at hfield
  rcases hfield with rfl | rfl | rfl
  · exact ⟨_, rfl, .leaf (.text sender) [⟨.mask, "name"⟩, ⟨.redact, "-"⟩]⟩
  · exact ⟨_, rfl, .leaf (.sequence [reader]) [⟨.mask, "name"⟩]⟩
  · exact ⟨_, rfl, .leaf (.bytes stamp) [⟨.redact, "+"⟩]⟩

/-- There are no optional records in a letter. -/
theorem letter_fellow (a b : String × String × Bytes) :
    (letter a.1 a.2.1 a.2.2).Fellow (letter b.1 b.2.1 b.2.2) := by
  have hnone : ∀ (sender reader : String) (stamp : Bytes) (path : List Nat),
      (letter sender reader stamp).at? path ≠ some (.optional none) := by
    intro sender reader stamp path h
    rcases path with _ | ⟨i, rest⟩
    · cases h
    · rcases i with _ | _ | _ | i <;> rcases rest with _ | ⟨j, rest⟩ <;> cases h
  exact fun path => ⟨fun h => absurd h (hnone _ _ _ path), fun h => absurd h (hnone _ _ _ path)⟩

end Sample

open Sample in
/-- Two letters that are sent, and two without a sender. -/
theorem Work.letters_alike :
    (Operation.cross .send (letter "Ada" "Eve" [7])).log postOffice =
        (Operation.cross .send (letter "Bo" "Dan" [8, 9])).log postOffice ∧
      (Operation.cross .send (letter "" "Eve" [7])).log postOffice =
        (Operation.loggable (letter " " "Dan" [])).log postOffice := by
  have compiled : PlanSet.compile letterFamily 0 = .ok letterPlanSet := by cbv
  constructor
  · have h := @log_discreet postOffice postOffice compiled rfl rfl _ _
      (letter_agrees "Ada" "Eve" [7]) (letter_agrees "Bo" "Dan" [8, 9])
      (letter_fellow ("Ada", "Eve", [7]) ("Bo", "Dan", [8, 9]))
    exact (h.1 _ _ .send (.cross .send _ _) rfl rfl (.inl ⟨_, rfl⟩) (.inl ⟨_, rfl⟩)).2 rfl
  · have h := @log_discreet postOffice postOffice compiled rfl rfl _ _
      (letter_agrees "" "Eve" [7]) (letter_agrees " " "Dan" [])
      (letter_fellow ("", "Eve", [7]) (" ", "Dan", []))
    have refused : postOffice.RefusesAt (letter "" "Eve" [7])
        ⟨.maskFailed, .mask, "sender", .capability (.invalidFormat .name "name cannot be empty")⟩
        ⟨[0], [], "sender", .masker .name, .text⟩ .whole (.text "") :=
      ⟨rfl, 0, 0, 0, _, _, .text "", .text "", _, _, rfl, rfl, rfl, rfl, rfl,
        .refused rfl rfl .nil rfl (.text "") rfl (.maskText rfl)⟩
    have refused' : postOffice.RefusesAt (letter " " "Dan" [])
        ⟨.maskFailed, .mask, "sender", .capability (.invalidFormat .name "name cannot be empty")⟩
        ⟨[0], [], "sender", .masker .name, .text⟩ .whole (.text " ") :=
      ⟨rfl, 0, 0, 0, _, _, .text " ", .text " ", _, _, rfl, rfl, rfl, rfl, rfl,
        .refused rfl rfl .nil rfl (.text " ") rfl (.maskText rfl)⟩
    refine (h.2 fun _ => rfl).1 _ _ _ _ _ _ "" " " refused refused' (.text "") (.text " ")
      (fun format hformat => ?_) _ _ rfl rfl
    cases hformat
    decide

end RecordPrivacy
