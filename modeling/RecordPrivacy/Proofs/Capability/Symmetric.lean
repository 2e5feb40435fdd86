import RecordPrivacy.Proofs.Capability.Envelope
import RecordPrivacy.Proofs.Cipher.Gcm
import RecordPrivacy.Proofs.Traversal.RoundTrip
import RecordPrivacy.Sample.Supply

/-! The symmetric encryptors.

Over any scheme of authenticated encryption, the plain one and the one of envelopes encrypt every
plaintext that the scheme takes, whatever they draw, add a fixed number of bytes, and decrypt what they
encrypted (`sealed_round_trip`). An envelope that opens has one layout, so that nothing in it can be
spelled otherwise (`envelope_canonical`). Both hold of the encryptors that key material builds, which
decrypt whatever they have encrypted (`ofKey_reversible`). -/
namespace RecordPrivacy.Encryptor
open Aead (KeySize)

variable {aead : Aead} {material plaintext : Bytes}

/-! ### Round trips -/

theorem ofBytes_of_size (size : KeySize material) :
    SymmetricKey.ofBytes material = .ok ⟨material, size⟩ :=
  dif_pos size

/-- A message is longer than its plaintext by a nonce and a tag. -/
theorem aesOver_round_trip (opens : aead.Opens) (seals : aead.Seals) (tags : aead.Tags)
    (key : SymmetricKey) (within : plaintext.length ≤ Aead.plaintextLimit) (supply : Entropy) :
    ∃ ciphertext, ((aesOver aead key).encrypt plaintext supply).1 = .ok ciphertext ∧
      ciphertext.length = plaintext.length + 28 ∧
      (aesOver aead key).decrypt ciphertext = .ok plaintext := by
  obtain ⟨ciphertext, h⟩ := Aead.sealMessage_ok seals key.size_ok within supply
  have hsealed := Aead.sealed_of_sealMessage h
  exact ⟨ciphertext, h, hsealed.length_eq tags key.size_ok, hsealed.opens opens key.size_ok⟩

/-- An envelope is longer than its message by two bytes and a sealed data key. -/
theorem envelopeOver_round_trip (opens : aead.Opens) (seals : aead.Seals) (tags : aead.Tags)
    (key : SymmetricKey) (within : plaintext.length ≤ Aead.plaintextLimit) (supply : Entropy) :
    ∃ ciphertext, ((envelopeOver aead key).encrypt plaintext supply).1 = .ok ciphertext ∧
      ciphertext.length = plaintext.length + 90 ∧ ciphertext.take 2 = Bytes.ofNatBE 2 60 ∧
      (envelopeOver aead key).decrypt ciphertext = .ok plaintext := by
  obtain ⟨ciphertext, h⟩ := Aead.sealEnvelope_ok seals tags key within supply
  have hsealed := Aead.enveloped_of_sealEnvelope h
  obtain ⟨dataKey, wrapped, data, -, -, -, hwrapped, hdata, hparts⟩ := hsealed.parts tags
  refine ⟨ciphertext, h, ?_, ?_, hsealed.opens opens tags⟩
  · rw [hparts, List.length_append, List.length_append, hwrapped, hdata]
    show 2 + (60 + _) = _
    omega
  · rw [hparts]
    rfl

/-- **Every plaintext that the scheme takes comes back**, under a key of any of its sizes and whatever
is drawn, from a ciphertext with a fixed number of bytes more. -/
theorem sealed_round_trip (opens : aead.Opens) (seals : aead.Seals) (tags : aead.Tags)
    (size : KeySize material) (within : plaintext.length ≤ Aead.plaintextLimit)
    (supply : Entropy) :
    ∃ key, SymmetricKey.ofBytes material = .ok key ∧ key.bytes = material ∧
      (∃ ciphertext, ((aesOver aead key).encrypt plaintext supply).1 = .ok ciphertext ∧
        ciphertext.length = plaintext.length + 28 ∧
        (aesOver aead key).decrypt ciphertext = .ok plaintext) ∧
      ∃ ciphertext, ((envelopeOver aead key).encrypt plaintext supply).1 = .ok ciphertext ∧
        ciphertext.length = plaintext.length + 90 ∧ ciphertext.take 2 = Bytes.ofNatBE 2 60 ∧
        (envelopeOver aead key).decrypt ciphertext = .ok plaintext :=
  ⟨⟨material, size⟩, ofBytes_of_size size, rfl,
    aesOver_round_trip opens seals tags _ within supply,
    envelopeOver_round_trip opens seals tags _ within supply⟩

/-- Six bytes under a key of 24 bytes. -/
theorem secret_round_trip : let plaintext := Utf8.encode "secret"
    Gcm.aead.Opens ∧ Gcm.aead.Seals ∧ Gcm.aead.Tags ∧ KeySize (List.replicate 24 7) ∧
      plaintext.length ≤ Aead.plaintextLimit ∧
      ∃ key, SymmetricKey.ofBytes (List.replicate 24 7) = .ok key ∧
        key.bytes = List.replicate 24 7 ∧
        (∃ ciphertext, ((aes key).encrypt plaintext Sample.supply).1 = .ok ciphertext ∧
          ciphertext.length = plaintext.length + 28 ∧
          (aes key).decrypt ciphertext = .ok plaintext) ∧
        ∃ ciphertext, ((envelope key).encrypt plaintext Sample.supply).1 = .ok ciphertext ∧
          ciphertext.length = plaintext.length + 90 ∧ ciphertext.take 2 = [0, 60] ∧
          (envelope key).decrypt ciphertext = .ok plaintext :=
  have size : KeySize (List.replicate 24 7) := .inr (.inl rfl)
  have within : (Utf8.encode "secret").length ≤ Aead.plaintextLimit := by decide
  ⟨Gcm.aead_opens, Gcm.aead_seals, Gcm.aead_tags, size, within,
    sealed_round_trip Gcm.aead_opens Gcm.aead_seals Gcm.aead_tags size within Sample.supply⟩

theorem aesOver_reversible (opens : aead.Opens) (key : SymmetricKey) :
    (aesOver aead key).Reversible :=
  fun _ _ _ h => (Aead.sealed_of_sealMessage h).opens opens key.size_ok

theorem envelopeOver_reversible (opens : aead.Opens) (tags : aead.Tags) (key : SymmetricKey) :
    (envelopeOver aead key).Reversible :=
  fun _ _ _ h => (Aead.enveloped_of_sealEnvelope h).opens opens tags

theorem eq_of_ofKey {algorithm : EncryptionAlgorithm} {e : Encryptor}
    (h : ofKey algorithm material = .ok e) : ∃ key, e = aes key ∨ e = envelope key := by
  cases hkey : SymmetricKey.ofBytes material with
  | error error => cases algorithm <;> simp [ofKey, hkey, Except.map] at h
  | ok key =>
    refine ⟨key, ?_⟩
    cases algorithm with
    | rsa => cases h
    | aes =>
      rw [ofKey, hkey] at h
      cases h
      exact .inl rfl
    | envelope =>
      rw [ofKey, hkey] at h
      cases h
      exact .inr rfl

/-- What key material builds decrypts whatever it has encrypted. -/
theorem ofKey_reversible {algorithm : EncryptionAlgorithm} {e : Encryptor}
    (h : ofKey algorithm material = .ok e) : e.Reversible := by
  obtain ⟨key, rfl | rfl⟩ := eq_of_ofKey h
  · exact aesOver_reversible Gcm.aead_opens key
  · exact envelopeOver_reversible Gcm.aead_opens Gcm.aead_tags key

/-! ### One layout -/

theorem decrypt_error_of_not_ok {e : Encryptor} {ciphertext : Bytes}
    (h : ∀ plaintext, e.decrypt ciphertext ≠ .ok plaintext) :
    ∃ error, e.decrypt ciphertext = .error error := by
  cases hanswer : e.decrypt ciphertext with
  | error error => exact ⟨error, rfl⟩
  | ok plaintext => exact absurd hanswer (h plaintext)

/-- **An envelope opens only in its one layout.** Another announced length in front of what opens, a
sealed data key of another length, or a data key of another length is refused. -/
theorem envelope_canonical (exact : aead.Exact) (master : SymmetricKey) (ciphertext : Bytes) :
    (∀ plaintext, (envelopeOver aead master).decrypt ciphertext = .ok plaintext ↔
      aead.Layout master ciphertext plaintext) ∧
    (∀ plaintext front, (envelopeOver aead master).decrypt ciphertext = .ok plaintext →
      front.length = 2 → front ≠ ciphertext.take 2 →
      ∃ error, (envelopeOver aead master).decrypt (front ++ ciphertext.drop 2) = .error error) ∧
    ∀ wrapped data, Aead.splitEnvelope ciphertext = some (wrapped, data) →
      (wrapped.length ≠ 60 ∨ ∃ dataKey, aead.openMessage master.bytes wrapped = .ok dataKey ∧
        dataKey.length ≠ 32) →
      ∃ error, (envelopeOver aead master).decrypt ciphertext = .error error := by
  have hlayout : ∀ c plaintext, (envelopeOver aead master).decrypt c = .ok plaintext ↔
      aead.Layout master c plaintext := fun _ _ => Aead.openEnvelope_ok_iff_layout exact
  refine ⟨hlayout ciphertext, ?_, ?_⟩
  · intro plaintext front hok hfront hne
    refine decrypt_error_of_not_ok fun other hother => hne ?_
    have hopened := ((hlayout _ _).mp hother).front_eq
    rw [List.take_left' hfront] at hopened
    rw [hopened, ((hlayout _ _).mp hok).front_eq]
  · intro wrapped data hsplit hsize
    refine decrypt_error_of_not_ok fun plaintext hok => ?_
    obtain ⟨wrapped', data', dataKey, hsplit', hwrapped, hkey, -⟩ :=
      Aead.openEnvelope_ok_iff.mp hok
    cases hsplit.symm.trans hsplit'
    obtain hlength | ⟨dataKey', hwrapped', hkey'⟩ := hsize
    · exact hlength (Aead.length_wrapped exact hwrapped hkey)
    · cases hwrapped.symm.trans hwrapped'
      exact hkey' hkey

/-- Six bytes in an envelope, and the same envelope with another announced length. -/
theorem secret_envelope_canonical :
    let master : SymmetricKey := ⟨List.replicate 16 7, .inl rfl⟩
    Gcm.aead.Exact ∧ ∃ ciphertext, (envelope master).decrypt ciphertext = .ok (Utf8.encode "secret") ∧
      Gcm.aead.Layout master ciphertext (Utf8.encode "secret") ∧
      ∃ error, (envelope master).decrypt ([0, 61] ++ ciphertext.drop 2) = .error error := by
  intro master
  obtain ⟨ciphertext, -, -, hfront, hdecrypt⟩ := envelopeOver_round_trip Gcm.aead_opens
    Gcm.aead_seals Gcm.aead_tags master
    (show (Utf8.encode "secret").length ≤ Aead.plaintextLimit by decide) Sample.supply
  obtain ⟨hlayout, hchanged, -⟩ := envelope_canonical Gcm.aead_exact master ciphertext
  refine ⟨Gcm.aead_exact, ciphertext, hdecrypt, (hlayout _).mp hdecrypt,
    hchanged _ [0, 61] hdecrypt rfl ?_⟩
  rw [hfront]
  decide

end RecordPrivacy.Encryptor
