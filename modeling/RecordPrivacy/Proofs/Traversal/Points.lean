import RecordPrivacy.Proofs.Text.Base64
import RecordPrivacy.Proofs.Traversal.FirstFailure

/-! What the point of a failure makes of its kind.

A traversal stops at one point, a plan without its capability or an element that is refused
(`StopsAt.unique`). The kind of the error is that of the action, with one exception: stored text that
is no base64 is refused before any encryptor has a part in it (`Refusal.classified`). -/
namespace RecordPrivacy

/-- Where an action fails: in its override, at a plan that is not bound to a capability, or at an
element that its transform refuses. -/
inductive FailurePoint where
  | override
  | plan (parameter : Parameter)
  | element (t : Transform) (p : Piece)

/-- The point at which a traversal stops: the plans before it got through, and of its leaf the
elements before it. -/
inductive StopsAt (c : Capabilities) (action : Action) (plans : List FieldPlan) (start : Record)
    (supply : Entropy) (e : TransformError) : FailurePoint → Prop
  | plan {k n : Nat} {plan : FieldPlan} {mid result : Record} {leaf : Leaf} {x : CapabilityError}
      {supply₁ supply' : Entropy} : plans[k]? = some plan →
      traverse c action (plans.take k) start supply = ((mid, .ok n), supply₁) →
      plan.run c action mid supply₁ = ((result, .error e), supply') →
      mid.resolve? plan.path = some leaf → Transform.bind c action plan.parameter = .error x →
      e = ⟨.ofAction action, action, plan.name, .capability x⟩ →
      StopsAt c action plans start supply e (.plan plan.parameter)
  | element {k n j : Nat} {plan : FieldPlan} {mid result : Record} {leaf : Leaf} {t : Transform}
      {done : List (Element × Piece)} {p : Piece} {field : String} {failure : Failure}
      {supply₁ supply₂ supply' : Entropy} : plans[k]? = some plan →
      traverse c action (plans.take k) start supply = ((mid, .ok n), supply₁) →
      plan.run c action mid supply₁ = ((result, .error e), supply') →
      mid.resolve? plan.path = some leaf → Transform.bind c action plan.parameter = .ok t →
      t.Visit (leaf.elements.take j) supply₁ done none supply₂ →
      leaf.ElementAt plan.name j p field →
      t.piece p supply₂ = (.error failure, supply') →
      e = ⟨failure.kind, action, field, failure.cause⟩ →
      StopsAt c action plans start supply e (.element t p)

variable {c : Capabilities} {action : Action} {plans : List FieldPlan} {start result : Record}
  {supply supply' : Entropy} {e : TransformError}

theorem traverse_stopsAt
    (h : traverse c action plans start supply = ((result, .error e), supply')) :
    ∃ point, StopsAt c action plans start supply e point := by
  obtain ⟨k, plan, mid, n, supply₁, hk, hbefore, hplan⟩ := traverse_error h
  obtain ⟨leaf, j, leaf', hleaf, hoff, -⟩ := FieldPlan.run_brokenOff hplan
  cases hoff with
  | unbound hbind => exact ⟨_, .plan hk hbefore hplan hleaf hbind rfl⟩
  | refused hbind _ hvisit _ hat hp _ =>
    exact ⟨_, .element hk hbefore hplan hleaf hbind hvisit hat hp rfl⟩

/-- A traversal stops at one point. -/
theorem StopsAt.unique {point point' : FailurePoint}
    (h : StopsAt c action plans start supply e point)
    (h' : StopsAt c action plans start supply e point') : point = point' := by
  cases h with
  | plan hk hbefore hplan hleaf hbind _ =>
    cases h' with
    | plan hk' hbefore' hplan' _ _ _ =>
      obtain ⟨-, rfl, -, -⟩ := fails_once hk hbefore hplan hk' hbefore' hplan'
      rfl
    | element hk' hbefore' hplan' _ hbind' _ _ _ _ =>
      obtain ⟨-, rfl, -, -⟩ := fails_once hk hbefore hplan hk' hbefore' hplan'
      cases hbind.symm.trans hbind'
  | element hk hbefore hplan hleaf hbind hvisit hat hp _ =>
    cases h' with
    | plan hk' hbefore' hplan' _ hbind' _ =>
      obtain ⟨-, rfl, -, -⟩ := fails_once hk hbefore hplan hk' hbefore' hplan'
      cases hbind.symm.trans hbind'
    | element hk' hbefore' hplan' hleaf' hbind' hvisit' hat' hp' _ =>
      obtain ⟨-, rfl, rfl, rfl⟩ := fails_once hk hbefore hplan hk' hbefore' hplan'
      cases hleaf.symm.trans hleaf'
      cases hbind.symm.trans hbind'
      obtain ⟨-, rfl⟩ := hat.refused_once hvisit hp hat' hvisit' hp'
      rfl

/-! ### Kinds -/

/-- What the point at which it occurred makes of the kind of an error. -/
structure Classified (e : TransformError) (point : FailurePoint) : Prop where
  /-- It is the encoding just if decryption has come upon text that no bytes are written as. -/
  encoding : e.kind = .encodingInvalid ↔ ∃ encryptor value,
    point = .element (.decrypt encryptor) (.text value) ∧ ∀ data, Base64.encode data ≠ value
  /-- Then the encryptor has no part in it: any other one is answered the same, whatever it does. -/
  uncalled : e.kind = .encodingInvalid → ∀ encryptor p,
    point = .element (.decrypt encryptor) p → ∀ other supply,
      (Transform.decrypt other).piece p supply = (.error ⟨e.kind, e.cause⟩, supply)
  otherwise : e.kind ≠ .encodingInvalid → e.kind = .ofAction e.action
  /-- Text that some bytes are written as is refused for their decryption, or since they were
  decrypted to no text. -/
  decryption : ∀ encryptor data,
    point = .element (.decrypt encryptor) (.text (Base64.encode data)) →
      e.kind = .decryptFailed ∧
        ((∃ x, encryptor.decrypt data = .error x ∧ e.cause = .capability x) ∨
          ∃ plain fault, encryptor.decrypt data = .ok plain ∧ Utf8.decode plain = .error fault ∧
            e.cause = .utf8 fault)
  transform : ∀ t p, point = .element t p → t.action = e.action
  redaction : e.kind = .redactFailed → point = .override

/-- An error of the action, at a point that is no element. -/
theorem Classified.of_action {field : String} {cause : Cause} {point : FailurePoint}
    (none : ∀ t p, point ≠ .element t p) (redact : action = .redact → point = .override) :
    Classified ⟨.ofAction action, action, field, cause⟩ point where
  encoding := by
    constructor
    · intro h
      cases action <;> cases h
    · intro h
      obtain ⟨_, _, h, -⟩ := h
      exact absurd h (none _ _)
  uncalled _ _ _ h := absurd h (none _ _)
  otherwise _ := rfl
  decryption _ _ h := absurd h (none _ _)
  transform _ _ h := absurd h (none _ _)
  redaction h := redact (by cases action <;> first | rfl | cases h)

/-- An error of the transform's action, at an element that is not decrypted. -/
theorem Classified.of_transform {t : Transform} {p : Piece} {field : String} {cause : Cause}
    (decrypts : t.action ≠ .decrypt) (redacts : t.action ≠ .redact) :
    Classified ⟨.ofAction t.action, t.action, field, cause⟩ (.element t p) where
  encoding := by
    constructor
    · intro h
      cases t <;> cases h
    · intro h
      obtain ⟨_, _, h, -⟩ := h
      cases h
      exact absurd rfl decrypts
  uncalled _ _ _ h := by
    cases h
    exact absurd rfl decrypts
  otherwise _ := rfl
  decryption _ _ h := by
    cases h
    exact absurd rfl decrypts
  transform _ _ h := by
    cases h
    rfl
  redaction h := by
    cases t <;> first | exact absurd rfl redacts | cases h

/-- An error of decryption, at an element that is decrypted. -/
theorem Classified.of_decrypt {encryptor : Encryptor} {p : Piece} {field : String} {cause : Cause}
    (h : ∀ value, p = .text value → ∃ data, Base64.encode data = value ∧
      ((∃ x, encryptor.decrypt data = .error x ∧ cause = .capability x) ∨
        ∃ plain fault, encryptor.decrypt data = .ok plain ∧ Utf8.decode plain = .error fault ∧
          cause = .utf8 fault)) :
    Classified ⟨.decryptFailed, .decrypt, field, cause⟩ (.element (.decrypt encryptor) p) where
  encoding := by
    constructor
    · intro h
      cases h
    · intro hex
      obtain ⟨_, value, hpoint, hnone⟩ := hex
      cases hpoint
      obtain ⟨data, hdata, -⟩ := h value rfl
      exact absurd hdata (hnone data)
  uncalled := nofun
  otherwise _ := rfl
  decryption _ data hpoint := by
    cases hpoint
    obtain ⟨data', hdata, hcause⟩ := h _ rfl
    cases Base64.encode_injective hdata
    exact ⟨rfl, hcause⟩
  transform _ _ hpoint := by
    cases hpoint
    rfl
  redaction := nofun

/-- An element that is refused is refused for its encoding or for the action. -/
theorem Refusal.classified {t : Transform} {p : Piece} {failure : Failure}
    (h : Refusal supply t p failure) (field : String) :
    Classified ⟨failure.kind, t.action, field, failure.cause⟩ (.element t p) := by
  cases h with
  | encrypt _ => exact Classified.of_transform (t := .encrypt _) nofun nofun
  | hash _ => exact Classified.of_transform (t := .hash _) nofun nofun
  | maskText _ => exact Classified.of_transform (t := .mask _) nofun nofun
  | maskBytes _ _ => exact Classified.of_transform (t := .mask _) nofun nofun
  | maskEncoding _ => exact Classified.of_transform (t := .mask _) nofun nofun
  | decryptText hd hx =>
    refine Classified.of_decrypt fun value hvalue => ?_
    cases hvalue
    exact ⟨_, Base64.encode_of_decode hd, .inl ⟨_, hx, rfl⟩⟩
  | plaintext hd hx hu =>
    refine Classified.of_decrypt fun value hvalue => ?_
    cases hvalue
    exact ⟨_, Base64.encode_of_decode hd, .inr ⟨_, _, hx, hu, rfl⟩⟩
  | decryptBytes _ => exact Classified.of_decrypt nofun
  | @encoding encryptor value fault hd =>
    have hnone : ∀ data, Base64.encode data ≠ value := Base64.decode_error_iff.mp ⟨fault, hd⟩
    refine ⟨⟨fun _ => ⟨encryptor, value, rfl, hnone⟩, fun _ => rfl⟩, fun _ _ p hp other supply => ?_,
      fun hne => absurd rfl hne, fun _ data hp => ?_, fun _ _ hp => ?_, nofun⟩
    · cases hp
      have hanswer : Transform.decryptText other value =
          .error ⟨.encodingInvalid, .base64 fault⟩ := by
        simp only [Transform.decryptText, hd]
      simp only [Transform.piece_text, Transform.text, State.pure_apply, hanswer]
      rfl
    · cases hp
      exact absurd rfl (hnone data)
    · cases hp
      rfl

end RecordPrivacy
