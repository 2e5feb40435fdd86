import RecordPrivacy.Proofs.Text.Base64
import RecordPrivacy.Sample.Capabilities
import RecordPrivacy.Sample.Supply
import RecordPrivacy.Transform

/-! The same content as a text and as a buffer.

A field holds its content as a text or as a buffer of bytes, and a transform has a function for either.
What only goes out (hashes, masks, redactions) is the same text in both (`bytes_encode`). A ciphertext
is no text: a buffer holds it as it is and a text holds it in base64 (`encrypt_text`,
`decrypt_text_encode`). `text_bytes_agree` puts this together with what there is in a buffer only, bytes
that are no text. -/
namespace RecordPrivacy

/-- What cannot be read is not the bytes of any text. -/
theorem Utf8.decode_error_iff {bytes : Bytes} :
    (∃ fault, decode bytes = .error fault) ↔ ∀ text, encode text ≠ bytes := by
  constructor
  · intro h text htext
    obtain ⟨fault, h⟩ := h
    rw [← htext, decode_encode] at h
    cases h
  · intro h
    cases hdecode : decode bytes with
    | error fault => exact ⟨fault, rfl⟩
    | ok text => exact absurd (encode_of_decode hdecode) (h text)

namespace Transform
variable {t : Transform} {e : Encryptor} {masker : Masker} {supply : Entropy}

/-- The result of a cipher is no text. -/
def IsCipher : Transform → Prop
  | .encrypt _ => True
  | .decrypt _ => True
  | _ => False

/-! ### What goes out -/

/-- A buffer that holds text becomes a buffer that holds what the text becomes. -/
theorem bytes_encode (h : ¬ t.IsCipher) (value : String) (supply : Entropy) :
    t.bytes (Utf8.encode value) supply =
      ((t.text value supply).1.map Utf8.encode, (t.text value supply).2) := by
  cases t with
  | encrypt e => exact absurd trivial h
  | decrypt e => exact absurd trivial h
  | hash hasher => rfl
  | mask masker =>
    rw [bytes, maskBytes, Utf8.decode_encode]
    rfl
  | redact literal => rfl

/-- Bytes that are no text are refused before the masker is asked. -/
theorem mask_bytes_of_fault {value : Bytes} {fault : Utf8.Fault}
    (h : Utf8.decode value = .error fault) :
    (mask masker).bytes value supply = (.error ⟨.maskFailed, .utf8 fault⟩, supply) := by
  rw [bytes, maskBytes, h]
  rfl

/-! ### Ciphertexts -/

theorem encrypt_text (value : String) (supply : Entropy) :
    (encrypt e).text value supply =
      (((encrypt e).bytes (Utf8.encode value) supply).1.map Base64.encode,
        ((encrypt e).bytes (Utf8.encode value) supply).2) := rfl

/-- The plaintext as text. -/
def readPlaintext (plaintext : Bytes) : Except Failure String :=
  (Utf8.decode plaintext).mapError fun fault => ⟨.decryptFailed, .utf8 fault⟩

theorem readPlaintext_encode (value : String) :
    readPlaintext (Utf8.encode value) = .ok value := by
  rw [readPlaintext, Utf8.decode_encode]
  rfl

theorem readPlaintext_ok_iff {plaintext : Bytes} {value : String} :
    readPlaintext plaintext = .ok value ↔ plaintext = Utf8.encode value := by
  constructor
  · intro h
    rw [readPlaintext] at h
    cases hdecode : Utf8.decode plaintext with
    | error fault =>
      rw [hdecode] at h
      cases h
    | ok text =>
      rw [hdecode] at h
      cases h
      exact (Utf8.encode_of_decode hdecode).symm
  · intro h
    rw [h, readPlaintext_encode]

theorem readPlaintext_of_fault {plaintext : Bytes} {fault : Utf8.Fault}
    (h : Utf8.decode plaintext = .error fault) :
    readPlaintext plaintext = .error ⟨.decryptFailed, .utf8 fault⟩ := by
  rw [readPlaintext, h]
  rfl

/-- A ciphertext is decrypted alike wherever it is held, and is then read as text or left as it is. -/
theorem decrypt_text_encode (ciphertext : Bytes) (supply : Entropy) :
    (decrypt e).text (Base64.encode ciphertext) supply =
      (((decrypt e).bytes ciphertext supply).1.bind readPlaintext, supply) := by
  have hboth : decryptText e (Base64.encode ciphertext) =
      ((e.decrypt ciphertext).mapError (decrypt e).failure).bind readPlaintext := by
    unfold decryptText
    rw [Base64.decode_encode]
    simp only
    cases e.decrypt ciphertext with
    | error x => rfl
    | ok plaintext =>
      have hread : ((Except.ok plaintext).mapError (decrypt e).failure).bind readPlaintext =
        readPlaintext plaintext := rfl
      rw [hread, readPlaintext]
      dsimp only
      cases Utf8.decode plaintext <;> rfl
  rw [text, hboth]
  rfl

/-! ### Both ways of holding a content -/

/-- **A content is treated alike as a text and as a buffer.** Hashes, masks and redactions answer on the
bytes of a text with the bytes of what they answer on the text, and refuse both for one reason; a mask
refuses bytes that are no text, whatever its masker. A ciphertext is held in base64 as a text and as it is
in a buffer, both when it is written and when it is read; a plaintext that is no text can be held in a
buffer only. -/
theorem text_bytes_agree :
    (∀ t : Transform, ¬ t.IsCipher → ∀ value supply,
      t.bytes (Utf8.encode value) supply =
        ((t.text value supply).1.map Utf8.encode, (t.text value supply).2)) ∧
    (∀ value : Bytes, (∀ text, Utf8.encode text ≠ value) → ∃ fault, ∀ masker supply,
      (mask masker).bytes value supply = (.error ⟨.maskFailed, .utf8 fault⟩, supply)) ∧
    (∀ e value supply, (encrypt e).text value supply =
      (((encrypt e).bytes (Utf8.encode value) supply).1.map Base64.encode,
        ((encrypt e).bytes (Utf8.encode value) supply).2)) ∧
    ∀ e ciphertext supply,
      (∀ value, ((decrypt e).text (Base64.encode ciphertext) supply).1 = .ok value ↔
        ((decrypt e).bytes ciphertext supply).1 = .ok (Utf8.encode value)) ∧
      (∀ x, e.decrypt ciphertext = .error x →
        ((decrypt e).bytes ciphertext supply).1 = .error ⟨.decryptFailed, .capability x⟩ ∧
        ((decrypt e).text (Base64.encode ciphertext) supply).1 =
          .error ⟨.decryptFailed, .capability x⟩) ∧
      ∀ plaintext, e.decrypt ciphertext = .ok plaintext → (∀ text, Utf8.encode text ≠ plaintext) →
        ((decrypt e).bytes ciphertext supply).1 = .ok plaintext ∧
        ∃ fault, ((decrypt e).text (Base64.encode ciphertext) supply).1 =
          .error ⟨.decryptFailed, .utf8 fault⟩ := by
  refine ⟨fun t h => bytes_encode h, ?masked, fun e => encrypt_text, ?decrypted⟩
  case masked =>
    intro value h
    obtain ⟨fault, hfault⟩ := Utf8.decode_error_iff.mpr h
    exact ⟨fault, fun masker supply => mask_bytes_of_fault hfault⟩
  case decrypted =>
    intro e ciphertext supply
    rw [decrypt_text_encode]
    refine ⟨fun value => ?_, fun x h => ?_, fun plaintext h hplaintext => ?_⟩
    · cases h : ((decrypt e).bytes ciphertext supply).1 with
      | error failure => simp [Except.bind]
      | ok plaintext => simp [Except.bind, readPlaintext_ok_iff]
    · have hbytes : ((decrypt e).bytes ciphertext supply).1 =
          .error ⟨.decryptFailed, .capability x⟩ := by
        rw [bytes, h]
        rfl
      exact ⟨hbytes, by rw [hbytes]; rfl⟩
    · have hbytes : ((decrypt e).bytes ciphertext supply).1 = .ok plaintext := by
        rw [bytes, h]
        rfl
      obtain ⟨fault, hfault⟩ := Utf8.decode_error_iff.mpr hplaintext
      exact ⟨hbytes, fault, by rw [hbytes]; exact readPlaintext_of_fault hfault⟩

/-- A name in a text and in a buffer; a buffer with a byte that no text has; and two ciphertexts, of which
the second was never a text. -/
theorem name_agrees :
    ((hash (.hex "#")).bytes (Utf8.encode "Ada") Sample.supply).1 = .ok (Utf8.encode "#416461") ∧
    (∃ fault, ∀ masker supply,
      (mask masker).bytes [65, 0xFF] supply = (.error ⟨.maskFailed, .utf8 fault⟩, supply)) ∧
    ((encrypt (.xor 1)).text "Ada" Sample.supply).1 = .ok "QGVg" ∧
    ((decrypt (.xor 1)).text "QGVg" Sample.supply).1 = .ok "Ada" ∧
    ∃ fault, ((decrypt (.xor 1)).text "QP4=" Sample.supply).1 =
      .error ⟨.decryptFailed, .utf8 fault⟩ := by
  obtain ⟨hplain, hmask, hencrypt, hdecrypt⟩ := text_bytes_agree
  have hnone : ∀ text, Utf8.encode text ≠ [65, 0xFF] :=
    Utf8.decode_error_iff.mp ⟨.malformed 1 1, rfl⟩
  refine ⟨?_, hmask _ hnone, ?_, ?_, ?_⟩
  · rw [hplain (hash (.hex "#")) id]
    rfl
  · rw [hencrypt]
    rfl
  · exact ((hdecrypt (.xor 1) [0x40, 0x65, 0x60] Sample.supply).1 "Ada").mpr rfl
  · exact ((hdecrypt (.xor 1) [0x40, 0xFE] Sample.supply).2.2 _ rfl hnone).2

end Transform
end RecordPrivacy
