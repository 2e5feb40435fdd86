import RecordPrivacy.Proofs.Capability.Envelope
import RecordPrivacy.Proofs.Cipher.Gcm
import RecordPrivacy.Sample.Supply
import RecordPrivacy.Text.Utf8

/-! How decryption fails.

Whatever bytes are handed to the symmetric encryptors, they are cut within their length only, and there
are two errors (`FailsCleanly`). A ciphertext is too short when a cut cannot be made: for the nonce of
a message, or, in an envelope, for the announced length, for the sealed data key, or for the nonce after
a data key that opened (`EndsEarly`). Everything else is a failed decryption. What is left of a
ciphertext that was cut off thus tells by its length which of the two it is (`decryption_fails_cleanly`). -/
namespace RecordPrivacy

/-- Bytes cut in two at a place within them. -/
def Bytes.cut? (bytes : Bytes) (place : Nat) : Option (Bytes × Bytes) :=
  if place ≤ bytes.length then some (bytes.take place, bytes.drop place) else none

theorem Bytes.cut?_of_le {bytes : Bytes} {place : Nat} (h : place ≤ bytes.length) :
    bytes.cut? place = some (bytes.take place, bytes.drop place) :=
  if_pos h

namespace Aead
variable {aead : Aead} {key : SymmetricKey} {plaintext ciphertext wrapped data dataKey : Bytes}

/-! ### Cuts -/

/-- `openMessage` as it goes when bytes can be cut within their length only. -/
def openMessage? (aead : Aead) (key message : Bytes) : Option (Except CapabilityError Bytes) :=
  if message.length < nonceSize then some (.error .ciphertextTooShort)
  else do
    let (nonce, sealed) ← message.cut? nonceSize
    match aead.decrypt key nonce sealed with
    | some plaintext => return .ok plaintext
    | none => return .error .decryptionFailed

/-- `openEnvelope` as it goes when bytes can be cut within their length only. -/
def openEnvelope? (aead : Aead) (master : SymmetricKey) (envelope : Bytes) :
    Option (Except CapabilityError Bytes) :=
  match envelope with
  | high :: low :: rest =>
    let size := Bytes.toNatBE [high, low]
    if rest.length < size then some (.error .ciphertextTooShort)
    else do
      let (wrapped, data) ← Bytes.cut? rest size
      match ← aead.openMessage? master.bytes wrapped with
      | .error e => return .error e
      | .ok dataKey =>
        if dataKey.length = dataKeySize then aead.openMessage? dataKey data
        else return .error .decryptionFailed
  | _ => some (.error .ciphertextTooShort)

theorem openMessage?_eq (aead : Aead) (key message : Bytes) :
    aead.openMessage? key message = some (aead.openMessage key message) := by
  unfold openMessage? openMessage
  split
  · rfl
  · rw [Bytes.cut?_of_le (by omega)]
    simp only [Option.bind_eq_bind, Option.bind_some]
    cases aead.decrypt key (message.take nonceSize) (message.drop nonceSize) <;> rfl

theorem openEnvelope?_eq (aead : Aead) (master : SymmetricKey) (envelope : Bytes) :
    aead.openEnvelope? master envelope = some (aead.openEnvelope master envelope) := by
  match envelope with
  | [] | [_] => rfl
  | high :: low :: rest =>
    simp only [openEnvelope?, openEnvelope, splitEnvelope]
    split
    · rfl
    · next hlong =>
      rw [Bytes.cut?_of_le (by omega)]
      simp only [Option.bind_eq_bind, Option.bind_some, openMessage?_eq]
      cases aead.openMessage master.bytes (rest.take (Bytes.toNatBE [high, low])) with
      | error e => rfl
      | ok dataKey =>
        dsimp only
        split <;> rfl

/-! ### Two errors -/

/-- The answer is reached by cuts within the bytes only, and if it is an error then one of two: too
short under the given condition, failed otherwise. -/
structure FailsCleanly (within : Option (Except CapabilityError Bytes))
    (answer : Except CapabilityError Bytes) (short : Prop) : Prop where
  within : within = some answer
  errors : ∀ e, answer = .error e → e = .ciphertextTooShort ∨ e = .decryptionFailed
  short_iff : answer = .error .ciphertextTooShort ↔ short

theorem openMessage_failsCleanly (aead : Aead) (key message : Bytes) :
    FailsCleanly (aead.openMessage? key message) (aead.openMessage key message)
      (message.length < nonceSize) :=
  ⟨openMessage?_eq aead key message, fun _ => openMessage_error, openMessage_short_iff⟩

/-- An envelope that ends before one of its parts: the announced length, the sealed data key, the nonce
of that, or the nonce of the message after a data key that opened. -/
def EndsEarly (aead : Aead) (master : SymmetricKey) (envelope : Bytes) : Prop :=
  envelope.length < 2 ∨ envelope.length - 2 < announced envelope ∨
    announced envelope < nonceSize ∨
    ((∃ dataKey, dataKey.length = dataKeySize ∧
        aead.openMessage master.bytes ((envelope.drop 2).take (announced envelope)) =
          .ok dataKey) ∧
      envelope.length - (2 + announced envelope) < nonceSize)

theorem openEnvelope_error {e : CapabilityError} (h : aead.openEnvelope key ciphertext = .error e) :
    e = .ciphertextTooShort ∨ e = .decryptionFailed := by
  unfold openEnvelope at h
  split at h
  · cases h
    exact .inl rfl
  · split at h
    · next hwrapped =>
      cases h
      exact openMessage_error hwrapped
    · split at h
      · exact openMessage_error h
      · cases h
        exact .inr rfl

theorem openEnvelope_short_iff : aead.openEnvelope key ciphertext = .error .ciphertextTooShort ↔
    aead.EndsEarly key ciphertext := by
  cases hsplit : splitEnvelope ciphertext with
  | none =>
    have hshort := splitEnvelope_eq_none_iff.mp hsplit
    refine iff_of_true (by rw [openEnvelope, hsplit]) ?_
    exact hshort.imp_right .inl
  | some parts =>
    obtain ⟨wrapped, data⟩ := parts
    obtain ⟨hplace, -, hannounced, htotal⟩ := parts_of_splitEnvelope hsplit
    rw [EndsEarly, ← hplace, ← hannounced, openEnvelope_of_split hsplit]
    cases hwrapped : aead.openMessage key.bytes wrapped with
    | error e =>
      -- No data key: what is short is the sealed data key itself.
      have hshort : aead.openMessage key.bytes wrapped = .error .ciphertextTooShort ↔
          wrapped.length < nonceSize := openMessage_short_iff
      simp only [hwrapped, Except.error.injEq] at hshort
      simp only [Except.error.injEq, reduceCtorEq, and_false, exists_false, false_and, or_false,
        hshort]
      omega
    | ok dataKey =>
      have hlong : ¬ wrapped.length < nonceSize := fun h => by
        rw [openMessage_of_short h] at hwrapped
        cases hwrapped
      dsimp only
      by_cases hsize : dataKey.length = dataKeySize
      · rw [if_pos hsize, openMessage_short_iff]
        refine ⟨fun h => .inr (.inr (.inr ⟨⟨dataKey, hsize, rfl⟩, by omega⟩)), fun h => ?_⟩
        obtain h | h | h | ⟨-, h⟩ := h <;> omega
      · rw [if_neg hsize]
        refine iff_of_false (by simp) ?_
        rintro (h | h | h | ⟨⟨dataKey', hsize', hopened⟩, -⟩)
        · omega
        · omega
        · omega
        · cases hopened
          exact hsize hsize'

theorem openEnvelope_failsCleanly (aead : Aead) (master : SymmetricKey) (envelope : Bytes) :
    FailsCleanly (aead.openEnvelope? master envelope) (aead.openEnvelope master envelope)
      (aead.EndsEarly master envelope) :=
  ⟨openEnvelope?_eq aead master envelope, fun _ => openEnvelope_error, openEnvelope_short_iff⟩

/-! ### Ciphertexts cut off -/

/-- What is cut off before the tag is complete is refused. -/
theorem Sealed.cut_off (refuses : aead.RefusesShort) (size : KeySize dataKey)
    (h : aead.Sealed dataKey plaintext data) (n : Nat) :
    (n < nonceSize → aead.openMessage dataKey (data.take n) = .error .ciphertextTooShort) ∧
      (nonceSize ≤ n → n < nonceSize + tagSize →
        aead.openMessage dataKey (data.take n) = .error .decryptionFailed) := by
  obtain ⟨nonce, sealed, hnonce, -, rfl⟩ := h
  constructor
  · intro hn
    refine openMessage_of_short ?_
    rw [List.length_take]
    omega
  · intro hn htag
    rw [List.take_append, List.take_of_length_le (by omega), openMessage_append hnonce,
      refuses dataKey nonce _ ⟨size, hnonce⟩ (by rw [List.length_take]; omega)]

/-- Before the end of the sealed data key, an envelope ends before what it announces. -/
theorem endsEarly_take {n : Nat} (hn : n < 62) :
    aead.EndsEarly key (([0, 60] ++ (wrapped ++ data)).take n) := by
  have htaken : (([0, 60] ++ (wrapped ++ data)).take n).length ≤ n := List.length_take_le _ _
  by_cases hfront : n < 2
  · exact .inl (by omega)
  · have hannounced : announced (([0, 60] ++ (wrapped ++ data)).take n) = 60 := by
      rw [announced, List.take_take, Nat.min_eq_left (by omega)]
      rfl
    exact .inr (.inl (by omega))

/-- From the end of the sealed data key on, what is left of the message decides. -/
theorem openEnvelope_take (hwrapped : wrapped.length = 60)
    (hopen : aead.openMessage key.bytes wrapped = .ok dataKey) (hkey : dataKey.length = dataKeySize)
    {n : Nat} (hn : 62 ≤ n) : aead.openEnvelope key (([0, 60] ++ (wrapped ++ data)).take n) =
      aead.openMessage dataKey (data.take (n - 62)) := by
  have hfront : ([0, 60] ++ (wrapped ++ data)).take n =
      [0, 60] ++ (wrapped ++ data).take (n - 2) := by
    rw [List.take_append, List.take_of_length_le (by show 2 ≤ n; omega)]
    rfl
  have hcut : (wrapped ++ data).take (n - 2) = wrapped ++ data.take (n - 62) := by
    rw [List.take_append, List.take_of_length_le (by omega), hwrapped, Nat.sub_sub]
  rw [hfront, hcut, openEnvelope_of_split (splitEnvelope_append rfl hwrapped), hopen]
  exact if_pos hkey

theorem Enveloped.cut_off (opens : aead.Opens) (tags : aead.Tags) (refuses : aead.RefusesShort)
    (h : aead.Enveloped key plaintext ciphertext) (n : Nat) :
    (n < 74 → aead.openEnvelope key (ciphertext.take n) = .error .ciphertextTooShort) ∧
      (74 ≤ n → n < 90 →
        aead.openEnvelope key (ciphertext.take n) = .error .decryptionFailed) := by
  obtain ⟨dataKey, wrapped, data, hkey, hwrapped, hdata, hsize, hlength, rfl⟩ := h.parts tags
  have hopen := hwrapped.opens opens key.size_ok
  have hdata_cut := hdata.cut_off refuses (.inr (.inr hkey)) (n - 62)
  constructor
  · intro hn
    by_cases hlong : 62 ≤ n
    · rw [openEnvelope_take hsize hopen hkey hlong]
      exact hdata_cut.1 (by show _ < 12; omega)
    · exact openEnvelope_short_iff.mpr (endsEarly_take (by omega))
  · intro hn htag
    rw [openEnvelope_take hsize hopen hkey (by omega)]
    exact hdata_cut.2 (by show 12 ≤ _; omega) (by show _ < 28; omega)

end Aead

namespace Encryptor
open Aead (FailsCleanly EndsEarly)

/-- **Decryption fails cleanly on whatever bytes it is given**, a message that is too short for its
nonce and an envelope that ends early in one way and all others in another; so does what is left of an
honest ciphertext, by how much of it is left. -/
theorem decryption_fails_cleanly (aead : Aead) (key : SymmetricKey) :
    (∀ ciphertext, FailsCleanly (aead.openMessage? key.bytes ciphertext)
      ((aesOver aead key).decrypt ciphertext) (ciphertext.length < 12)) ∧
    (∀ ciphertext, FailsCleanly (aead.openEnvelope? key ciphertext)
      ((envelopeOver aead key).decrypt ciphertext) (aead.EndsEarly key ciphertext)) ∧
    (∀ ciphertext wrapped data dataKey, Aead.splitEnvelope ciphertext = some (wrapped, data) →
      aead.openMessage key.bytes wrapped = .ok dataKey → dataKey.length ≠ 32 →
      (envelopeOver aead key).decrypt ciphertext = .error .decryptionFailed) ∧
    (aead.Opens → aead.Tags → aead.RefusesShort → ∀ plaintext supply ciphertext n,
      (((aesOver aead key).encrypt plaintext supply).1 = .ok ciphertext →
        (n < 12 → (aesOver aead key).decrypt (ciphertext.take n) = .error .ciphertextTooShort) ∧
        (12 ≤ n → n < 28 →
          (aesOver aead key).decrypt (ciphertext.take n) = .error .decryptionFailed)) ∧
      (((envelopeOver aead key).encrypt plaintext supply).1 = .ok ciphertext →
        (n < 74 →
          (envelopeOver aead key).decrypt (ciphertext.take n) = .error .ciphertextTooShort) ∧
        (74 ≤ n → n < 90 →
          (envelopeOver aead key).decrypt (ciphertext.take n) = .error .decryptionFailed))) := by
  refine ⟨Aead.openMessage_failsCleanly aead key.bytes, Aead.openEnvelope_failsCleanly aead key,
    ?_, ?_⟩
  · intro ciphertext wrapped data dataKey hsplit hwrapped hsize
    show aead.openEnvelope key ciphertext = _
    rw [Aead.openEnvelope_of_split hsplit, hwrapped]
    exact if_neg hsize
  · intro opens tags refuses plaintext supply ciphertext n
    exact ⟨fun h => (Aead.sealed_of_sealMessage h).cut_off refuses key.size_ok n,
      fun h => (Aead.enveloped_of_sealEnvelope h).cut_off opens tags refuses n⟩

/-- Six bytes in an envelope, cut off inside the nonce of the message and right after it, and a data key
of 16 bytes in one. -/
theorem secret_cut_off : let key : SymmetricKey := ⟨List.replicate 32 7, .inr (.inr rfl)⟩
    Gcm.aead.Opens ∧ Gcm.aead.Tags ∧ Gcm.aead.RefusesShort ∧
      (∃ ciphertext,
        ((envelope key).encrypt (Utf8.encode "secret") Sample.supply).1 = .ok ciphertext ∧
          (envelope key).decrypt (ciphertext.take 73) = .error .ciphertextTooShort ∧
          (envelope key).decrypt (ciphertext.take 74) = .error .decryptionFailed) ∧
      ∃ wrapped, Gcm.aead.openMessage key.bytes wrapped = .ok (List.replicate 16 1) ∧
        (envelope key).decrypt ([0, 44] ++ (wrapped ++ [])) = .error .decryptionFailed := by
  intro key
  have refuses := Gcm.aead_exact.refusesShort
  obtain ⟨-, -, hother, hcut⟩ := decryption_fails_cleanly Gcm.aead key
  refine ⟨Gcm.aead_opens, Gcm.aead_tags, refuses, ?_, ?_⟩
  · obtain ⟨ciphertext, h⟩ := Aead.sealEnvelope_ok Gcm.aead_seals Gcm.aead_tags key
      (show (Utf8.encode "secret").length ≤ Aead.plaintextLimit by decide) Sample.supply
    have hcut' := fun n => (hcut Gcm.aead_opens Gcm.aead_tags refuses _ _ ciphertext n).2 h
    exact ⟨ciphertext, h, (hcut' 73).1 (by decide), (hcut' 74).2 (by decide) (by decide)⟩
  · obtain ⟨wrapped, h⟩ := Aead.sealMessage_ok Gcm.aead_seals key.size_ok
      (show (List.replicate 16 (1 : UInt8)).length ≤ Aead.plaintextLimit by decide) Sample.supply
    have hsealed := Aead.sealed_of_sealMessage h
    have hopened := hsealed.opens Gcm.aead_opens key.size_ok
    have hlength := hsealed.length_eq Gcm.aead_tags key.size_ok
    exact ⟨wrapped, hopened,
      hother _ wrapped [] _ (Aead.splitEnvelope_append rfl hlength) hopened (by decide)⟩

end Encryptor
end RecordPrivacy
