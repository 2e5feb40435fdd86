import RecordPrivacy.Capability.Encryptor
import RecordPrivacy.Proofs.State

/-! Sealed messages.

A message is a nonce and what was sealed under it (`Sealed`). It is opened by cutting it where the
nonce ends, which can be done unless it is shorter than that (`openMessage_short_iff`); then the
scheme decides, and there is one way to fail (`openMessage_append`). -/
namespace RecordPrivacy.Aead
variable {aead : Aead} {key nonce sealed plaintext message : Bytes} {supply : Entropy}

/-! ### Sealing -/

/-- The message is the plaintext sealed under the key, with one nonce or another. -/
def Sealed (aead : Aead) (key plaintext message : Bytes) : Prop :=
  ∃ nonce sealed, nonce.length = nonceSize ∧ aead.encrypt key nonce plaintext = some sealed ∧
    message = nonce ++ sealed

theorem sealMessage_apply (aead : Aead) (key plaintext : Bytes) (supply : Entropy) :
    (aead.sealMessage key plaintext supply).1 =
      match aead.encrypt key (Entropy.draw nonceSize supply).1 plaintext with
      | some sealed => .ok ((Entropy.draw nonceSize supply).1 ++ sealed)
      | none => .error .encryptionFailed := by
  simp only [sealMessage, State.bind_apply]
  cases aead.encrypt key (Entropy.draw nonceSize supply).1 plaintext <;> rfl

theorem sealed_of_sealMessage (h : (aead.sealMessage key plaintext supply).1 = .ok message) :
    aead.Sealed key plaintext message := by
  rw [sealMessage_apply] at h
  split at h
  · next sealed hsealed =>
    cases h
    exact ⟨_, sealed, Entropy.length_draw nonceSize supply, hsealed, rfl⟩
  · cases h

theorem sealMessage_ok (seals : aead.Seals) (size : KeySize key)
    (within : plaintext.length ≤ plaintextLimit) (supply : Entropy) :
    ∃ message, (aead.sealMessage key plaintext supply).1 = .ok message := by
  obtain ⟨sealed, hsealed⟩ := seals key (Entropy.draw nonceSize supply).1 plaintext
    ⟨size, Entropy.length_draw nonceSize supply⟩ within
  exact ⟨_, by rw [sealMessage_apply, hsealed]⟩

theorem Sealed.length_eq (tags : aead.Tags) (size : KeySize key)
    (h : aead.Sealed key plaintext message) :
    message.length = plaintext.length + (nonceSize + tagSize) := by
  obtain ⟨nonce, sealed, hnonce, hsealed, rfl⟩ := h
  rw [List.length_append, hnonce, tags key nonce plaintext sealed ⟨size, hnonce⟩ hsealed]
  omega

/-! ### Opening -/

theorem openMessage_append (hnonce : nonce.length = nonceSize) :
    aead.openMessage key (nonce ++ sealed) =
      match aead.decrypt key nonce sealed with
      | some plaintext => .ok plaintext
      | none => .error .decryptionFailed := by
  have hlong : ¬ (nonce ++ sealed).length < nonceSize := by
    rw [List.length_append]
    omega
  cases hopen : aead.decrypt key nonce sealed <;>
    simp only [openMessage, if_neg hlong, List.take_left' hnonce, List.drop_left' hnonce, hopen]

theorem openMessage_of_short (h : message.length < nonceSize) :
    aead.openMessage key message = .error .ciphertextTooShort :=
  if_pos h

theorem short_or_append (message : Bytes) : message.length < nonceSize ∨
    ∃ nonce sealed, nonce.length = nonceSize ∧ message = nonce ++ sealed := by
  refine (Nat.lt_or_ge message.length nonceSize).imp_right fun hlong => ?_
  exact ⟨message.take nonceSize, message.drop nonceSize, List.length_take_of_le hlong,
    (List.take_append_drop nonceSize message).symm⟩

theorem openMessage_ok_iff : aead.openMessage key message = .ok plaintext ↔
    ∃ nonce sealed, nonce.length = nonceSize ∧ message = nonce ++ sealed ∧
      aead.decrypt key nonce sealed = some plaintext := by
  constructor
  · intro h
    obtain hshort | ⟨nonce, sealed, hnonce, rfl⟩ := short_or_append message
    · rw [openMessage_of_short hshort] at h
      cases h
    · rw [openMessage_append hnonce] at h
      split at h
      · next found hfound =>
        cases h
        exact ⟨nonce, sealed, hnonce, rfl, hfound⟩
      · cases h
  · rintro ⟨nonce, sealed, hnonce, rfl, hopen⟩
    rw [openMessage_append hnonce, hopen]

theorem openMessage_short_iff :
    aead.openMessage key message = .error .ciphertextTooShort ↔ message.length < nonceSize := by
  refine ⟨fun h => ?_, openMessage_of_short⟩
  obtain hshort | ⟨nonce, sealed, hnonce, rfl⟩ := short_or_append message
  · exact hshort
  · rw [openMessage_append hnonce] at h
    split at h <;> cases h

/-- A message that is long enough for its nonce fails in one way only. -/
theorem openMessage_error {e : CapabilityError} (h : aead.openMessage key message = .error e) :
    e = .ciphertextTooShort ∨ e = .decryptionFailed := by
  obtain hshort | ⟨nonce, sealed, hnonce, rfl⟩ := short_or_append message
  · rw [openMessage_of_short hshort] at h
    cases h
    exact .inl rfl
  · rw [openMessage_append hnonce] at h
    split at h
    · cases h
    · cases h
      exact .inr rfl

/-- What opens is longer than its plaintext by a nonce and a tag. -/
theorem length_of_openMessage (exact : aead.Exact) (size : KeySize key)
    (h : aead.openMessage key message = .ok plaintext) :
    message.length = plaintext.length + (nonceSize + tagSize) := by
  obtain ⟨nonce, sealed, hnonce, rfl, hopen⟩ := openMessage_ok_iff.mp h
  rw [List.length_append, hnonce, exact key nonce sealed plaintext ⟨size, hnonce⟩ hopen]
  omega

theorem Sealed.opens (opens : aead.Opens) (size : KeySize key)
    (h : aead.Sealed key plaintext message) : aead.openMessage key message = .ok plaintext := by
  obtain ⟨nonce, sealed, hnonce, hsealed, rfl⟩ := h
  exact openMessage_ok_iff.mpr
    ⟨nonce, sealed, hnonce, rfl, opens key nonce plaintext sealed ⟨size, hnonce⟩ hsealed⟩

end RecordPrivacy.Aead
