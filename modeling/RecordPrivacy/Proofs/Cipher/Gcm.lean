import RecordPrivacy.Cipher.Gcm
import RecordPrivacy.Proofs.Cipher.Aes

/-! The laws of authenticated encryption, kept by Galois/counter mode.

Under a key and a nonce of the right sizes the key stream is made of whole blocks, so that a message
keeps its length in it and comes back when it goes through a second time (`stream_stream`). The tag is
a function of the ciphertext. Hence opening undoes sealing (`aead_opens`), sealing succeeds within the
limit and adds a tag (`aead_seals`, `aead_tags`), and nothing else than a ciphertext and its tag opens
(`aead_exact`). -/
namespace RecordPrivacy.Gcm

/-! ### The key stream -/

/-- Every block of the key stream is whole. -/
def Whole (keys : List Bytes) (nonce : Bytes) : Prop :=
  ∀ n, (Aes.encryptBlock keys (counterBlock nonce n)).length = 16

theorem whole_of_fits {key nonce : Bytes} (fits : Aead.Fits key nonce) :
    Whole (Aes.roundKeys key) nonce := by
  intro n
  obtain ⟨keyWords, positive, hsize⟩ : ∃ keyWords, 0 < keyWords ∧ key.length = 4 * keyWords := by
    obtain h | h | h := fits.key_size
    · exact ⟨4, by decide, h⟩
    · exact ⟨6, by decide, h⟩
    · exact ⟨8, by decide, h⟩
  refine Aes.length_encryptBlock (Aes.length_of_mem_roundKeys positive hsize) ?_
  rw [counterBlock, List.length_append, Bytes.length_ofNatBE, fits.nonce_size]
  rfl

variable {keys : List Bytes} {key nonce : Bytes}

/-- The stream goes over a message sixteen bytes at a time. -/
theorem streamFrom_chunks (keys : List Bytes) (nonce : Bytes) (n : Nat) (message : Bytes) :
    streamFrom keys nonce n (Bytes.chunks 16 message) =
      Bytes.xor (message.take 16) (Aes.encryptBlock keys (counterBlock nonce n)) ++
        streamFrom keys nonce (n + 1) (Bytes.chunks 16 (message.drop 16)) := by
  by_cases h : message = []
  · subst h
    simp [streamFrom, Bytes.xor]
  · rw [Bytes.chunks_eq (by decide) h, streamFrom]

theorem length_streamFrom (whole : Whole keys nonce) (n : Nat) (message : Bytes) :
    (streamFrom keys nonce n (Bytes.chunks 16 message)).length = message.length := by
  induction message using Bytes.chunks.induct 16 generalizing n with
  | case1 => simp [streamFrom]
  | case2 b rest ih =>
    rw [streamFrom_chunks, List.length_append, Bytes.length_xor, whole, List.drop_succ_cons, ih,
      List.length_take, List.length_drop, List.length_cons]
    omega

theorem streamFrom_streamFrom (whole : Whole keys nonce) (n : Nat) (message : Bytes) :
    streamFrom keys nonce n (Bytes.chunks 16 (streamFrom keys nonce n (Bytes.chunks 16 message))) =
      message := by
  induction message using Bytes.chunks.induct 16 generalizing n with
  | case1 => simp [streamFrom]
  | case2 b rest ih =>
    rw [streamFrom_chunks keys nonce n (b :: rest), List.drop_succ_cons]
    generalize hfirst : Bytes.xor ((b :: rest).take 16)
      (Aes.encryptBlock keys (counterBlock nonce n)) = first
    generalize hothers : streamFrom keys nonce (n + 1) (Bytes.chunks 16 (rest.drop 15)) = others
    have hlength : first.length = min 16 (b :: rest).length := by
      rw [← hfirst, Bytes.length_xor, whole, List.length_take]
      omega
    have hrest : others.length = rest.length - 15 := by
      rw [← hothers, length_streamFrom whole, List.length_drop]
    -- The first piece is cut off again where it ends: it is whole, or nothing follows it.
    have hcut : (first ++ others).take 16 = first ∧ (first ++ others).drop 16 = others := by
      rw [List.length_cons] at hlength
      by_cases hshort : rest.length < 15
      · obtain rfl : others = [] := List.eq_nil_of_length_eq_zero (by omega)
        rw [List.append_nil]
        exact ⟨List.take_of_length_le (by omega), List.drop_eq_nil_of_le (by omega)⟩
      · have h16 : first.length = 16 := by omega
        exact ⟨List.take_left' h16, List.drop_left' h16⟩
    rw [streamFrom_chunks, hcut.1, hcut.2, ← hothers, ih, ← hfirst, Bytes.xor_xor]
    · exact List.take_append_drop 16 (b :: rest)
    · rw [whole]
      exact List.length_take_le 16 _

theorem length_stream (whole : Whole keys nonce) (message : Bytes) :
    (stream keys nonce message).length = message.length :=
  length_streamFrom whole 2 message

theorem stream_stream (whole : Whole keys nonce) (message : Bytes) :
    stream keys nonce (stream keys nonce message) = message :=
  streamFrom_streamFrom whole 2 message

/-! ### The laws -/

theorem length_tag (whole : Whole keys nonce) (ciphertext : Bytes) :
    (tag keys nonce ciphertext).length = Aead.tagSize := by
  rw [tag, Bytes.length_xor, Bytes.length_ofNatBE, whole]
  rfl

theorem encrypt_eq_some {plaintext sealed : Bytes} (h : encrypt key nonce plaintext = some sealed) :
    let ciphertext := stream (Aes.roundKeys key) nonce plaintext
    plaintext.length ≤ Aead.plaintextLimit ∧
      sealed = ciphertext ++ tag (Aes.roundKeys key) nonce ciphertext := by
  unfold encrypt at h
  split at h
  · cases h
  · cases h
    exact ⟨by omega, rfl⟩

theorem aead_tags : aead.Tags := by
  intro key nonce plaintext sealed fits h
  obtain ⟨-, rfl⟩ := encrypt_eq_some h
  have whole := whole_of_fits fits
  rw [List.length_append, length_stream whole, length_tag whole]

theorem aead_seals : aead.Seals := by
  intro key nonce plaintext fits within
  exact ⟨_, by simp only [aead, encrypt]; rw [if_neg (by omega)]⟩

theorem aead_opens : aead.Opens := by
  intro key nonce plaintext sealed fits h
  have hlength := aead_tags key nonce plaintext sealed fits h
  obtain ⟨within, rfl⟩ := encrypt_eq_some h
  have hsize := length_stream (whole_of_fits fits) plaintext
  simp only [aead, decrypt]
  rw [if_neg (by omega), hlength, Nat.add_sub_cancel, List.take_left' hsize,
    List.drop_left' hsize, if_pos rfl, stream_stream (whole_of_fits fits)]

theorem aead_exact : aead.Exact := by
  intro key nonce sealed plaintext fits h
  simp only [aead, decrypt] at h
  split at h
  · cases h
  · split at h
    · cases h
      rw [length_stream (whole_of_fits fits), List.length_take]
      omega
    · cases h

end RecordPrivacy.Gcm
