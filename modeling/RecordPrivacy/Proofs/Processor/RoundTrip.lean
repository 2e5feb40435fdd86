import RecordPrivacy.Proofs.Bytes
import RecordPrivacy.Proofs.Plan.Origin
import RecordPrivacy.Proofs.Processor.Coding
import RecordPrivacy.Proofs.Traversal.RoundTrip
import RecordPrivacy.Sample.Vault

/-! What is stored can be loaded.

A record that a processor has stored is given back by loading what was stored, and one that it has
written by reading the bytes, if its type encrypts and decrypts the same leaves and its encryptors
are reversible (`load_store`). -/
namespace RecordPrivacy

/-- The leaves that are encrypted are the ones that are decrypted, with the same parameters, and no
leaf comes twice. -/
structure PlanSet.Symmetric (plans : PlanSet) : Prop where
  encrypted : ((plans.forAction .encrypt).map FieldPlan.path).Nodup
  decrypted : ((plans.forAction .decrypt).map FieldPlan.path).Nodup
  same : ∀ target, target ∈ (plans.forAction .encrypt).map FieldPlan.target ↔
    target ∈ (plans.forAction .decrypt).map FieldPlan.target

/-- The codec decodes what it has encoded of a record. -/
def Codec.Lossless (codec : Codec) (empty record : Record) : Prop :=
  ∀ data, codec.encode record = .ok data → codec.decode data empty = .ok record

namespace Session
variable {w : Work} {value : Record}

theorem load_of_store (compiled : PlanSet.compile w.processor.type.family w.processor.type.root =
      .ok w.processor.plans)
    (encrypts : .encrypt ∉ w.processor.type.overrides)
    (decrypts : .decrypt ∉ w.processor.type.overrides)
    (symmetric : w.processor.plans.Symmetric) (reversible : w.processor.capabilities.Reversible)
    {stored : Record} (h : (store value w).1 = .ok stored) {w' : Work}
    (hprocessor : w'.processor = w.processor.settled) : (load stored w').1 = .ok value := by
  obtain ⟨hvalid, n, supply, hrun⟩ := (cross_single w rfl encrypts).mp h
  have hback := traverse_restores reversible symmetric.encrypted symmetric.decrypted
    (encryptor_of_compile compiled (.inl rfl)) symmetric.same hrun w'.entropy
  refine (cross_single w' rfl (by rw [hprocessor]; exact decrypts)).mpr ⟨?_, ?_⟩
  · rw [hprocessor, Processor.outcome_settled, hvalid]
  · rw [hprocessor]
    exact hback

/-- **What was stored is loaded again, and what was written is read.** -/
theorem load_store (compiled : PlanSet.compile w.processor.type.family w.processor.type.root =
      .ok w.processor.plans)
    (encrypts : .encrypt ∉ w.processor.type.overrides)
    (decrypts : .decrypt ∉ w.processor.type.overrides)
    (symmetric : w.processor.plans.Symmetric) (reversible : w.processor.capabilities.Reversible)
    (value : Record) :
    (∀ stored, (store value w).1 = .ok stored →
      ∀ w', w'.processor = (store value w).2.processor → (load stored w').1 = .ok value) ∧
    ∀ codec, w.processor.codec = some codec →
      (∀ stored, (store value w).1 = .ok stored →
        codec.Lossless w.processor.type.empty stored) →
      ∀ data, (write value w).1 = .ok data →
        ∀ w', w'.processor = (write value w).2.processor → (read data w').1 = .ok value := by
  constructor
  · intro stored h w' hprocessor
    rw [show (store value w).2.processor = w.processor.settled from cross_processor w _ _]
      at hprocessor
    exact load_of_store compiled encrypts decrypts symmetric reversible h hprocessor
  · intro codec hcodec lossless data h w' hprocessor
    rw [show (write value w).2.processor = w.processor.settled from outbound_processor w _ _]
      at hprocessor
    obtain ⟨stored, hstored, hencode⟩ := of_outbound_ok w hcodec h
    have hload := load_of_store compiled encrypts decrypts symmetric reversible hstored hprocessor
    have hcodec' : w'.processor.codec = some codec := by
      rw [hprocessor]
      exact hcodec
    refine inbound_ok w' hcodec' ?_ hload
    rw [hprocessor]
    exact lossless stored hstored data hencode

theorem reversible_xor (byte : UInt8) : (Encryptor.xor byte).Reversible := by
  intro plaintext supply ciphertext h
  cases h
  exact congrArg Except.ok (Bytes.map_xor_twice byte plaintext)

open Sample in
theorem form_loaded_again :
    (store (form "ab" "c" "" "d") vault).1 = .ok (form "YGM=" "Yg==" "" "ZQ==") ∧
      (load (form "YGM=" "Yg==" "" "ZQ==") (store (form "ab" "c" "" "d") vault).2).1 =
        .ok (form "ab" "c" "" "d") := by
  have hstore : (store (form "ab" "c" "" "d") vault).1 = .ok (form "YGM=" "Yg==" "" "ZQ==") := rfl
  have hsymmetric : vault.processor.plans.Symmetric :=
    ⟨by decide, by decide, fun target => Iff.rfl⟩
  have hreversible : vault.processor.capabilities.Reversible := by
    intro algorithm e he
    cases algorithm <;> cases he
    exact reversible_xor 1
  exact ⟨hstore, (load_store (by cbv) (by decide) (by decide) hsymmetric hreversible _).1 _ hstore
    _ rfl⟩

end Session

end RecordPrivacy
