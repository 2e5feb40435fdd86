import RecordPrivacy.Proofs.Transform.Elements

/-! Why a transform refuses a piece. `Refusal` lists the reasons, each with the failure that it
amounts to; `piece_error_iff` says that there are no others. -/
namespace RecordPrivacy

/-- The bytes that a capability is given for the piece. -/
def Piece.data : Piece → Bytes
  | .text value => Utf8.encode value
  | .bytes value => value

/-- A reason to refuse a piece: the error of a capability that was called on it, stored text that is
no base64, or bytes that are no text. -/
inductive Refusal (supply : Entropy) : Transform → Piece → Failure → Prop
  | encrypt {encryptor : Encryptor} {p : Piece} {x : CapabilityError} :
      (encryptor.encrypt p.data supply).1 = .error x →
      Refusal supply (.encrypt encryptor) p ⟨.encryptFailed, .capability x⟩
  | encoding {encryptor : Encryptor} {value : String} {fault : Base64.Fault} :
      Base64.decode value = .error fault →
      Refusal supply (.decrypt encryptor) (.text value) ⟨.encodingInvalid, .base64 fault⟩
  | decryptText {encryptor : Encryptor} {value : String} {data : Bytes} {x : CapabilityError} :
      Base64.decode value = .ok data → encryptor.decrypt data = .error x →
      Refusal supply (.decrypt encryptor) (.text value) ⟨.decryptFailed, .capability x⟩
  | plaintext {encryptor : Encryptor} {value : String} {data plain : Bytes} {fault : Utf8.Fault} :
      Base64.decode value = .ok data → encryptor.decrypt data = .ok plain →
      Utf8.decode plain = .error fault →
      Refusal supply (.decrypt encryptor) (.text value) ⟨.decryptFailed, .utf8 fault⟩
  | decryptBytes {encryptor : Encryptor} {value : Bytes} {x : CapabilityError} :
      encryptor.decrypt value = .error x →
      Refusal supply (.decrypt encryptor) (.bytes value) ⟨.decryptFailed, .capability x⟩
  | hash {hasher : Hasher} {p : Piece} {x : CapabilityError} :
      (hasher.hash p.data supply).1 = .error x →
      Refusal supply (.hash hasher) p ⟨.hashFailed, .capability x⟩
  | maskText {masker : Masker} {value : String} {x : CapabilityError} :
      masker.mask value = .error x →
      Refusal supply (.mask masker) (.text value) ⟨.maskFailed, .capability x⟩
  | maskBytes {masker : Masker} {value : Bytes} {text : String} {x : CapabilityError} :
      Utf8.decode value = .ok text → masker.mask text = .error x →
      Refusal supply (.mask masker) (.bytes value) ⟨.maskFailed, .capability x⟩
  | maskEncoding {masker : Masker} {value : Bytes} {fault : Utf8.Fault} :
      Utf8.decode value = .error fault →
      Refusal supply (.mask masker) (.bytes value) ⟨.maskFailed, .utf8 fault⟩

namespace Transform

theorem map_eq_error {ε α β : Type} {f : α → β} {r : Except ε α} {x : ε} :
    r.map f = .error x ↔ r = .error x := by
  cases r <;> simp [Except.map]

theorem mapError_eq_error {ε ε' α : Type} {f : ε → ε'} {r : Except ε α} {x : ε'} :
    r.mapError f = .error x ↔ ∃ y, r = .error y ∧ f y = x := by
  cases r <;> simp [Except.mapError]

variable (supply : Entropy) (failure : Failure)

theorem decryptText_error_iff (encryptor : Encryptor) (value : String) :
    decryptText encryptor value = .error failure ↔
      Refusal supply (.decrypt encryptor) (.text value) failure := by
  unfold decryptText
  constructor
  · intro h
    cases hd : Base64.decode value with
    | error fault =>
      simp only [hd] at h
      cases h
      exact .encoding hd
    | ok data =>
      simp only [hd] at h
      cases hx : encryptor.decrypt data with
      | error x =>
        simp only [hx] at h
        cases h
        exact .decryptText hd hx
      | ok plain =>
        simp only [hx] at h
        cases hu : Utf8.decode plain with
        | error fault =>
          simp only [hu] at h
          cases h
          exact .plaintext hd hx hu
        | ok text =>
          simp only [hu] at h
          cases h
  · intro h
    cases h with
    | encoding hd => simp only [hd]
    | decryptText hd hx => simp only [hd, hx, Transform.failure, action, FailureKind.ofAction]
    | plaintext hd hx hu => simp only [hd, hx, hu]

theorem text_error_iff (t : Transform) (value : String) :
    (t.text value supply).1 = .error failure ↔ Refusal supply t (.text value) failure := by
  cases t with
  | encrypt encryptor =>
    simp only [text, State.bind_apply, State.pure_apply, map_eq_error, mapError_eq_error]
    constructor
    · intro h
      obtain ⟨x, hx, rfl⟩ := h
      exact .encrypt hx
    · intro h
      cases h with
      | encrypt hx => exact ⟨_, hx, rfl⟩
  | decrypt encryptor => exact decryptText_error_iff supply failure encryptor value
  | hash hasher =>
    simp only [text, State.bind_apply, State.pure_apply, mapError_eq_error]
    constructor
    · intro h
      obtain ⟨x, hx, rfl⟩ := h
      exact .hash hx
    · intro h
      cases h with
      | hash hx => exact ⟨_, hx, rfl⟩
  | mask masker =>
    simp only [text, State.pure_apply, mapError_eq_error]
    constructor
    · intro h
      obtain ⟨x, hx, rfl⟩ := h
      exact .maskText hx
    · intro h
      cases h with
      | maskText hx => exact ⟨_, hx, rfl⟩
  | redact literal =>
    constructor
    · intro h
      cases h
    · intro h
      cases h

theorem maskBytes_error_iff (masker : Masker) (value : Bytes) :
    maskBytes masker value = .error failure ↔
      Refusal supply (.mask masker) (.bytes value) failure := by
  unfold maskBytes
  constructor
  · intro h
    cases hu : Utf8.decode value with
    | error fault =>
      simp only [hu] at h
      cases h
      exact .maskEncoding hu
    | ok text =>
      simp only [hu, map_eq_error, mapError_eq_error] at h
      obtain ⟨x, hx, rfl⟩ := h
      exact .maskBytes hu hx
  · intro h
    cases h with
    | maskEncoding hu => simp only [hu]
    | maskBytes hu hx =>
      simp only [hu, map_eq_error, mapError_eq_error]
      exact ⟨_, hx, rfl⟩

theorem bytes_error_iff (t : Transform) (value : Bytes) :
    (t.bytes value supply).1 = .error failure ↔ Refusal supply t (.bytes value) failure := by
  cases t with
  | encrypt encryptor =>
    simp only [bytes, State.bind_apply, State.pure_apply, mapError_eq_error]
    constructor
    · intro h
      obtain ⟨x, hx, rfl⟩ := h
      exact .encrypt hx
    · intro h
      cases h with
      | encrypt hx => exact ⟨_, hx, rfl⟩
  | decrypt encryptor =>
    simp only [bytes, State.pure_apply, mapError_eq_error]
    constructor
    · intro h
      obtain ⟨x, hx, rfl⟩ := h
      exact .decryptBytes hx
    · intro h
      cases h with
      | decryptBytes hx => exact ⟨_, hx, rfl⟩
  | hash hasher =>
    simp only [bytes, State.bind_apply, State.pure_apply, map_eq_error, mapError_eq_error]
    constructor
    · intro h
      obtain ⟨x, hx, rfl⟩ := h
      exact .hash hx
    · intro h
      cases h with
      | hash hx => exact ⟨_, hx, rfl⟩
  | mask masker => exact maskBytes_error_iff supply failure masker value
  | redact literal =>
    constructor
    · intro h
      cases h
    · intro h
      cases h

/-- A piece is refused for one of the reasons and with its failure. -/
theorem piece_error_iff (t : Transform) (p : Piece) :
    (t.piece p supply).1 = .error failure ↔ Refusal supply t p failure := by
  cases p with
  | text value =>
    rw [piece_text, map_eq_error]
    exact text_error_iff supply failure t value
  | bytes value =>
    rw [piece_bytes, map_eq_error]
    exact bytes_error_iff supply failure t value

end Transform

end RecordPrivacy
