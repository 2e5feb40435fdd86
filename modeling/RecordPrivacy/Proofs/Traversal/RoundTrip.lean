import RecordPrivacy.Proofs.Text.Base64
import RecordPrivacy.Proofs.Transform.Refusal
import RecordPrivacy.Proofs.Traversal.Exact
import Mathlib.Data.List.Nodup

/-! Encryption undone.

A ciphertext is kept in the place of a piece in an encoding that is always good, so that what becomes
of it is a matter of its decryption alone (`Transform.decrypt_enciphered`). An encryptor is
reversible if it decrypts what it has encrypted, whatever it drew for it. Then every piece comes
back, a text through base64 and UTF-8, and so does the whole record when plans that encrypt are
followed by plans that decrypt the same leaves with the same parameters (`traverse_restores`). -/
namespace RecordPrivacy

def Encryptor.Reversible (e : Encryptor) : Prop :=
  ∀ plaintext supply ciphertext, (e.encrypt plaintext supply).1 = .ok ciphertext →
    e.decrypt ciphertext = .ok plaintext

def Capabilities.Reversible (c : Capabilities) : Prop :=
  ∀ algorithm e, c.encryptor? algorithm = some e → e.Reversible

/-- A ciphertext as it is kept in the place of a piece. -/
def Piece.enciphered (ciphertext : Bytes) : Piece → Piece
  | .text _ => .text (Base64.encode ciphertext)
  | .bytes _ => .bytes ciphertext

namespace Transform
variable {e : Encryptor} {p q : Piece} {ciphertext : Bytes}

theorem encrypt_yields (hy : (encrypt e).Yields p q) : ∃ supply ciphertext,
    (e.encrypt p.data supply).1 = .ok ciphertext ∧ q = p.enciphered ciphertext := by
  obtain ⟨supply, hq⟩ := hy
  refine ⟨supply, ?_⟩
  cases p with
  | text value =>
    rw [piece_text] at hq
    simp only [text, State.bind_apply, State.pure_apply] at hq
    rw [Piece.data]
    cases he : (e.encrypt (Utf8.encode value) supply).1 with
    | error x =>
      rw [he] at hq
      cases hq
    | ok ciphertext =>
      rw [he] at hq
      cases hq
      exact ⟨ciphertext, rfl, rfl⟩
  | bytes value =>
    rw [piece_bytes] at hq
    simp only [bytes, State.bind_apply, State.pure_apply] at hq
    rw [Piece.data]
    cases he : (e.encrypt value supply).1 with
    | error x =>
      rw [he] at hq
      cases hq
    | ok ciphertext =>
      rw [he] at hq
      cases hq
      exact ⟨ciphertext, rfl, rfl⟩

/-- A ciphertext that is decrypted to what the piece held gives back the piece. -/
theorem decrypt_enciphered (h : e.decrypt ciphertext = .ok p.data) :
    (decrypt e).Answers (p.enciphered ciphertext) (.ok p) := by
  intro supply
  cases p with
  | text value =>
    have hdecrypt : decryptText e (Base64.encode ciphertext) = .ok value := by
      simp only [decryptText, Base64.decode_encode, h, Piece.data, Utf8.decode_encode]
    simp only [Piece.enciphered, piece_text, text, State.pure_apply, hdecrypt]
    rfl
  | bytes value =>
    simp only [Piece.enciphered, piece_bytes, bytes, State.pure_apply, h]
    rfl

/-- The encoding of a ciphertext is good, so that its decryption decides what is answered. -/
theorem decrypt_enciphered_error {x : CapabilityError} (h : e.decrypt ciphertext = .error x)
    (p : Piece) :
    (decrypt e).Answers (p.enciphered ciphertext) (.error ⟨.decryptFailed, .capability x⟩) := by
  intro supply
  cases p with
  | text value =>
    exact (piece_error_iff supply _ _ _).mpr (.decryptText (Base64.decode_encode ciphertext) h)
  | bytes value => exact (piece_error_iff supply _ _ _).mpr (.decryptBytes h)

/-- Decryption answers what encryption was given. -/
theorem decrypt_answers (h : e.Reversible) (hy : (encrypt e).Yields p q) :
    (decrypt e).Answers q (.ok p) := by
  obtain ⟨supply, ciphertext, he, rfl⟩ := encrypt_yields hy
  exact decrypt_enciphered (h _ _ _ he)

end Transform

/-- A plan with an encryption algorithm is bound to one encryptor for both actions. -/
theorem Transform.bind_encryptor {c : Capabilities} {algorithm : EncryptionAlgorithm}
    {t : Transform} (h : bind c .encrypt (.encryptor algorithm) = .ok t) :
    ∃ e, c.encryptor? algorithm = some e ∧ t = .encrypt e ∧
      bind c .decrypt (.encryptor algorithm) = .ok (.decrypt e) := by
  cases he : c.encryptor? algorithm with
  | none => simp [bind, he] at h
  | some e =>
    simp only [bind, he] at h
    cases h
    exact ⟨e, rfl, rfl, by simp [bind, he]⟩

/-- The leaf of a plan and what is done to it. -/
def FieldPlan.target (plan : FieldPlan) : List Nat × Parameter :=
  (plan.path, plan.parameter)

variable {c : Capabilities} {encrypting decrypting : List FieldPlan} {record stored : Record}
  {supply supply' : Entropy} {n : Nat}

/-- What a plan that decrypts finds is what came of the leaf that was there. -/
theorem reached_encrypted (distinct : (encrypting.map FieldPlan.path).Nodup)
    (encryptors : ∀ plan ∈ encrypting, ∃ algorithm, plan.parameter = .encryptor algorithm)
    (h : traverse c .encrypt encrypting record supply = ((stored, .ok n), supply'))
    {plan : FieldPlan} (hplan : plan.target ∈ encrypting.map FieldPlan.target) {leaf' : Leaf}
    (hleaf' : stored.resolve? plan.path = some leaf') :
    ∃ algorithm e leaf, plan.parameter = .encryptor algorithm ∧
      c.encryptor? algorithm = some e ∧ record.resolve? plan.path = some leaf ∧
      leaf'.shape = leaf.shape ∧
      Transform.Elementwise (Transform.encrypt e).Yields leaf.elements leaf'.elements := by
  obtain ⟨before, hmem, htarget⟩ := List.mem_map.mp hplan
  obtain ⟨hpath, hparameter⟩ := Prod.ext_iff.mp htarget
  simp only [FieldPlan.target] at hpath hparameter
  rw [← hpath] at hleaf' ⊢
  rw [← hparameter]
  cases hleaf : record.resolve? before.path with
  | none =>
    have happlied := (traverse_yields distinct h).1
    have hsurface := happlied.unreached before.path fun p _ hp => by rw [hleaf]
    rw [Record.resolve?_of_surface hsurface, hleaf] at hleaf'
    cases hleaf'
  | some leaf =>
    obtain ⟨changes, rfl, hpaths, -, hwritten⟩ := traverse_ok distinct h
    obtain ⟨t, new, hbind, hnew, hshape, helements⟩ := hwritten before hmem leaf hleaf
    have hnodup : (changes.map Prod.fst).Nodup := by
      rw [hpaths]
      exact distinct.sublist (List.filter_sublist.map FieldPlan.path)
    rw [Record.resolve?_replaceAll_of_mem hnodup hleaf hnew] at hleaf'
    cases hleaf'
    obtain ⟨algorithm, halgorithm⟩ := encryptors before hmem
    rw [halgorithm] at hbind
    obtain ⟨e, he, rfl, -⟩ := Transform.bind_encryptor hbind
    exact ⟨algorithm, e, leaf, halgorithm, he, rfl, hshape, helements⟩

/-- **Decrypting the leaves that were encrypted gives back the record**, every part of it. -/
theorem traverse_restores (reversible : c.Reversible)
    (distinct : (encrypting.map FieldPlan.path).Nodup)
    (distinct' : (decrypting.map FieldPlan.path).Nodup)
    (encryptors : ∀ plan ∈ encrypting, ∃ algorithm, plan.parameter = .encryptor algorithm)
    (same : ∀ target, target ∈ encrypting.map FieldPlan.target ↔
      target ∈ decrypting.map FieldPlan.target)
    (h : traverse c .encrypt encrypting record supply = ((stored, .ok n), supply'))
    (supply₁ : Entropy) :
    ∃ m supply₂, traverse c .decrypt decrypting stored supply₁ =
      ((record, .ok m), supply₂) := by
  have hreached : ∀ plan ∈ decrypting, ∀ leaf', stored.resolve? plan.path = some leaf' →
      ∃ e leaf, Transform.bind c .decrypt plan.parameter = .ok (.decrypt e) ∧
        record.resolve? plan.path = some leaf ∧ leaf.shape = leaf'.shape ∧
        Transform.Elementwise (fun p q => (Transform.decrypt e).Answers p (.ok q)) leaf'.elements
          leaf.elements := by
    intro plan hp leaf' hl
    obtain ⟨algorithm, e, leaf, hparameter, he, hleaf, hshape, helements⟩ :=
      reached_encrypted distinct encryptors h ((same plan.target).mpr (List.mem_map_of_mem hp)) hl
    refine ⟨e, leaf, by simp [Transform.bind, hparameter, he], hleaf, hshape.symm,
      helements.symm.imp fun a b hab => ⟨hab.1, ?_⟩⟩
    exact Transform.decrypt_answers (reversible algorithm e he) hab.2
  have answerable : Answerable c .decrypt decrypting stored := by
    intro plan hp leaf' hl
    obtain ⟨e, leaf, hbind, -, -, helements⟩ := hreached plan hp leaf' hl
    exact ⟨.decrypt e, hbind, fun element he => helements.exists_of_mem he⟩
  obtain ⟨result, m, supply₂, hrun⟩ := traverse_succeeds distinct' answerable supply₁
  obtain ⟨originals, hresult, hpaths', -, hwritten'⟩ := traverse_ok distinct' hrun
  obtain ⟨changes, rfl, hpaths, -, hwritten⟩ := traverse_ok distinct h
  have hnodup' : (originals.map Prod.fst).Nodup := by
    rw [hpaths']
    exact distinct'.sublist (List.filter_sublist.map FieldPlan.path)
  -- Every leaf that was encrypted is decrypted,
  have covers : ∀ path ∈ changes.map Prod.fst, path ∈ originals.map Prod.fst := by
    intro path hpath
    rw [hpaths] at hpath
    obtain ⟨plan, hplan, rfl⟩ := List.mem_map.mp hpath
    obtain ⟨hmem, hpresent⟩ := List.mem_filter.mp hplan
    obtain ⟨plan', hmem', htarget⟩ :=
      List.mem_map.mp ((same plan.target).mp (List.mem_map_of_mem hmem))
    have hpath' : plan'.path = plan.path := congrArg Prod.fst htarget
    obtain ⟨leaf, hleaf⟩ := Option.isSome_iff_exists.mp hpresent
    obtain ⟨leaf', hleaf', -⟩ := (traverse_yields distinct h).1.reached plan hmem leaf hleaf
    rw [hpaths', ← hpath']
    refine List.mem_map_of_mem (List.mem_filter.mpr ⟨hmem', ?_⟩)
    rw [FieldPlan.present, hpath', hleaf']
    rfl
  -- and it is the leaf that was there.
  have original : ∀ change ∈ originals, record.resolve? change.1 = some change.2 := by
    intro change hchange
    have hpath := List.mem_map_of_mem (f := Prod.fst) hchange
    rw [hpaths'] at hpath
    obtain ⟨plan, hplan, hp⟩ := List.mem_map.mp hpath
    obtain ⟨hmem, hpresent⟩ := List.mem_filter.mp hplan
    obtain ⟨leaf', hleaf'⟩ := Option.isSome_iff_exists.mp hpresent
    obtain ⟨e, leaf, hbind, hleaf, hshape, helements⟩ := hreached plan hmem leaf' hleaf'
    obtain ⟨t, new, hbind', hnew, hshape', helements'⟩ := hwritten' plan hmem leaf' hleaf'
    cases hbind.symm.trans hbind'
    have hdeterministic := Transform.deterministic_of_action (.decrypt e) (.inl rfl)
    have hanswers : Transform.Elementwise (fun p q => (Transform.decrypt e).Answers p (.ok q))
        leaf'.elements new.elements :=
      helements'.imp fun a b hab => ⟨hab.1, hdeterministic.answers hab.2⟩
    have hsame : new = leaf := Leaf.ext_elements (hshape'.trans hshape.symm)
      (hanswers.eq_map.trans helements.eq_map.symm)
    obtain rfl : change = (plan.path, new) :=
      List.inj_on_of_nodup_map hnodup' hchange hnew hp.symm
    rw [hleaf, hsame]
  refine ⟨m, supply₂, ?_⟩
  rw [hrun, hresult, Record.replaceAll_restore record changes originals covers original]

end RecordPrivacy
