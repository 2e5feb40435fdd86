import RecordPrivacy.Proofs.Bytes
import RecordPrivacy.Proofs.State
import RecordPrivacy.Proofs.Text.Spelling
import RecordPrivacy.Proofs.Transform.Refusal
import RecordPrivacy.Sample.Capabilities
import RecordPrivacy.Sample.Supply

/-! Stored text.

Encrypted text is kept in base64, so that a ciphertext has one stored text and a stored text one
ciphertext. If an encryptor that draws nothing gives back the ciphertexts that it decrypts, then so does
text: what can be decrypted is what its plaintext is encrypted to. Text that no ciphertext is kept as is
never mended but reported as such (`stored_text_canonical`). -/
namespace RecordPrivacy

/-- Encrypting what a ciphertext was decrypted to gives the ciphertext again, whatever is drawn. -/
def Encryptor.Restores (e : Encryptor) : Prop :=
  ∀ ciphertext plaintext supply, e.decrypt ciphertext = .ok plaintext →
    (e.encrypt plaintext supply).1 = .ok ciphertext

theorem Encryptor.restores_xor (byte : UInt8) : (Encryptor.xor byte).Restores := by
  intro ciphertext plaintext supply h
  cases h
  exact congrArg Except.ok (Bytes.map_xor_twice byte ciphertext)

namespace Transform
variable {e : Encryptor} {stored value : String}

theorem decryptText_ok (h : decryptText e stored = .ok value) :
    ∃ ciphertext, Base64.decode stored = .ok ciphertext ∧
      e.decrypt ciphertext = .ok (Utf8.encode value) := by
  unfold decryptText at h
  split at h
  · cases h
  · next ciphertext hdecode =>
    split at h
    · cases h
    · next plaintext hdecrypt =>
      split at h
      · cases h
      · next text htext =>
        cases h
        exact ⟨ciphertext, hdecode, by rw [hdecrypt, Utf8.encode_of_decode htext]⟩

theorem encrypt_text_ok {ciphertext : Bytes} {supply : Entropy}
    (h : (e.encrypt (Utf8.encode value) supply).1 = .ok ciphertext) :
    ((encrypt e).text value supply).1 = .ok (Base64.encode ciphertext) := by
  simp only [text, State.bind_apply, State.pure_apply, h]
  rfl

/-- The encoding is at fault exactly if the text cannot be read, whatever the encryptor would say. -/
theorem decrypt_text_encodingInvalid_iff {supply : Entropy} :
    (∃ fault, ((decrypt e).text stored supply).1 = .error ⟨.encodingInvalid, .base64 fault⟩) ↔
      Base64.Misspelled stored.toList := by
  rw [← Base64.decode_error_iff_misspelled]
  refine exists_congr fun fault => ?_
  rw [text_error_iff]
  constructor
  · intro h
    cases h with
    | encoding hdecode => exact hdecode
  · exact .encoding

/-- **Stored text is canonical.** What is decrypted is encrypted to the same text again, a ciphertext is
kept as one text only, and a text that is misspelled is refused for its encoding. -/
theorem stored_text_canonical (e : Encryptor) :
    (e.Restores → ∀ stored value supply supply',
      ((decrypt e).text stored supply).1 = .ok value →
        ((encrypt e).text value supply').1 = .ok stored) ∧
    (∀ ciphertext stored, Base64.decode stored = .ok ciphertext ↔
      stored = Base64.encode ciphertext) ∧
    ∀ stored supply, (∃ fault, ((decrypt e).text stored supply).1 =
      .error ⟨.encodingInvalid, .base64 fault⟩) ↔ Base64.Misspelled stored.toList := by
  refine ⟨?_, ?_, fun _ _ => decrypt_text_encodingInvalid_iff⟩
  · intro restores stored value supply supply' h
    obtain ⟨ciphertext, hdecode, hdecrypt⟩ := decryptText_ok h
    rw [encrypt_text_ok (restores _ _ supply' hdecrypt), Base64.encode_of_decode hdecode]
  · intro ciphertext stored
    refine ⟨fun h => (Base64.encode_of_decode h).symm, ?_⟩
    rintro rfl
    exact Base64.decode_encode ciphertext

/-- Text that every byte was changed of, stored, read, and stored again; and the same with a pad short,
with one too many, with a blank, in another alphabet, and with a bit left over. -/
theorem secret_stored_again :
    (Encryptor.xor 1).Restores ∧
      ((decrypt (.xor 1)).text "cmRic2Q=" Sample.supply).1 = .ok "secre" ∧
      ((encrypt (.xor 1)).text "secre" Sample.supply).1 = .ok "cmRic2Q=" ∧
      ∀ stored ∈ ["cmRic2Q", "cmRic2Q==", "cmRi c2Q=", "cmRic2_=", "cmRic2R="],
        ∃ fault, ((decrypt (.xor 1)).text stored Sample.supply).1 =
          .error ⟨.encodingInvalid, .base64 fault⟩ := by
  obtain ⟨hagain, -, hmisspelled⟩ := stored_text_canonical (.xor 1)
  have restores := Encryptor.restores_xor 1
  refine ⟨restores, rfl, hagain restores "cmRic2Q=" "secre" Sample.supply _ rfl, ?_⟩
  intro stored hstored
  refine (hmisspelled stored Sample.supply).mpr ?_
  simp only [List.mem_cons, List.not_mem_nil, or_false] at hstored
  obtain rfl | rfl | rfl | rfl | rfl := hstored
  · exact .padding "cmRic2Q".toList 0 rfl (by decide) (by decide)
  · exact .padding "cmRic2Q".toList 2 rfl (by decide) (by decide)
  · exact .foreign (c := ' ') (by decide) (by decide) (by decide)
  · exact .foreign (c := '_') (by decide) (by decide) (by decide)
  · exact .unused "cmRic2".toList 17 1 rfl (by decide) (by decide) (by decide)

end Transform
end RecordPrivacy
