import RecordPrivacy.Proofs.Processor.Redaction
import RecordPrivacy.Proofs.Processor.RoundTrip
import RecordPrivacy.Proofs.Traversal.Refused

/-! Reading with the wrong key.

An encryptor is foreign to another one that refuses every ciphertext it can produce. What was stored
under encryptors that are foreign to those of the reader yields no data: it is loaded if there was
nothing to encrypt, and then it is the value that was stored, and else the first element that there
is to decrypt is refused, for the decryption and never for the encoding (`Work.load_foreign`). -/
namespace RecordPrivacy

/-- The other encryptor refuses whatever ciphertext this one can produce. -/
def Encryptor.Foreign (e other : Encryptor) : Prop :=
  ∀ plaintext supply ciphertext, (e.encrypt plaintext supply).1 = .ok ciphertext →
    other.decrypt ciphertext = .error .decryptionFailed

def Capabilities.Foreign (c other : Capabilities) : Prop :=
  ∀ algorithm e e', c.encryptor? algorithm = some e → other.encryptor? algorithm = some e' →
    e.Foreign e'

/-- The leaves with a directive of the action have no elements: what there is of them are empty
sequences and mappings. -/
def RecordType.Bare (type : RecordType) (action : Action) (value : Record) : Prop :=
  ∀ path text leaf, type.Directs path ⟨action, text⟩ → value.resolve? path = some leaf →
    leaf.elements = []

theorem RecordType.bare_iff {p : Processor}
    (compiled : PlanSet.compile p.type.family p.type.root = .ok p.plans) {action : Action}
    {value : Record} : p.type.Bare action value ↔
      RecordPrivacy.Bare (p.plans.forAction action) value := by
  constructor
  · intro bare plan hplan leaf hleaf
    obtain ⟨text, hdirects, -⟩ := directs_of_plan compiled hplan
    exact bare plan.path text leaf hdirects hleaf
  · intro bare path text leaf hdirects hleaf
    obtain ⟨plan, hplan, rfl, -⟩ := plan_of_directs compiled hdirects
    exact bare plan hplan leaf hleaf

/-! ### Traversals -/

section
variable {c c' : Capabilities} {encrypting decrypting : List FieldPlan} {record stored : Record}
  {supply supply' : Entropy} {n : Nat}

/-- Whatever a plan finds to decrypt is refused. -/
theorem refusing_foreign (foreign : c.Foreign c')
    (distinct : (encrypting.map FieldPlan.path).Nodup)
    (encryptors : ∀ plan ∈ encrypting, ∃ algorithm, plan.parameter = .encryptor algorithm)
    (same : ∀ target, target ∈ encrypting.map FieldPlan.target ↔
      target ∈ decrypting.map FieldPlan.target)
    (bound : ∀ plan ∈ decrypting, ∃ t, Transform.bind c' .decrypt plan.parameter = .ok t)
    (h : traverse c .encrypt encrypting record supply = ((stored, .ok n), supply')) :
    Refusing c' .decrypt decrypting stored ⟨.decryptFailed, .capability .decryptionFailed⟩ := by
  intro plan hp leaf' hl
  obtain ⟨algorithm, e, leaf, hparameter, he, -, -, helements⟩ :=
    reached_encrypted distinct encryptors h ((same plan.target).mpr (List.mem_map_of_mem hp)) hl
  obtain ⟨t, hbind⟩ := bound plan hp
  refine ⟨t, hbind, fun element helement => ?_⟩
  rw [hparameter] at hbind
  cases he' : c'.encryptor? algorithm with
  | none => simp [Transform.bind, he'] at hbind
  | some e' =>
    simp only [Transform.bind, he'] at hbind
    cases hbind
    obtain ⟨p, hyields⟩ := helements.symm.exists_of_mem helement
    obtain ⟨supply, ciphertext, hencrypt, hq⟩ := Transform.encrypt_yields hyields
    rw [hq]
    exact Transform.decrypt_enciphered_error (foreign algorithm e e' he he' _ _ _ hencrypt) p

theorem traverse_foreign (foreign : c.Foreign c')
    (distinct : (encrypting.map FieldPlan.path).Nodup)
    (encryptors : ∀ plan ∈ encrypting, ∃ algorithm, plan.parameter = .encryptor algorithm)
    (same : ∀ target, target ∈ encrypting.map FieldPlan.target ↔
      target ∈ decrypting.map FieldPlan.target)
    (bound : ∀ plan ∈ decrypting, ∃ t, Transform.bind c' .decrypt plan.parameter = .ok t)
    (h : traverse c .encrypt encrypting record supply = ((stored, .ok n), supply'))
    (supply₁ : Entropy) :
    (Bare decrypting record ∧ ∃ m supply₂, traverse c' .decrypt decrypting stored supply₁ =
      ((record, .ok m), supply₂)) ∨
    ∃ k field supply₂, FirstReached decrypting record k field ∧
      traverse c' .decrypt decrypting stored supply₁ =
        ((stored, .error ⟨.decryptFailed, .decrypt, field, .capability .decryptionFailed⟩),
          supply₂) := by
  have hframes := (traverse_yields distinct h).1.frames
  rcases traverse_refused (refusing_foreign foreign distinct encryptors same bound h) supply₁ with
    ⟨hbare, m, supply₂, hrun⟩ | ⟨k, field, supply₂, hreached, hrun⟩
  · have hrecord : Bare decrypting record := hbare.congr fun path => (hframes path).symm
    -- There was nothing to encrypt either, so that what was stored is the record.
    have hnothing : Bare encrypting record := by
      intro plan hp leaf hl
      obtain ⟨plan', hp', htarget⟩ :=
        List.mem_map.mp ((same plan.target).mp (List.mem_map_of_mem hp))
      have hpath : plan'.path = plan.path := congrArg Prod.fst htarget
      exact hrecord plan' hp' leaf (hpath ▸ hl)
    have hkept : (traverse c .encrypt encrypting record supply).1.1 = record :=
      traverse_bare hnothing supply
    rw [h] at hkept
    cases hkept
    exact .inl ⟨hrecord, m, supply₂, hrun⟩
  · exact .inr ⟨k, field, supply₂, hreached.congr fun path => (hframes path).symm, hrun⟩

end

/-! ### Processors -/

/-- **Reading with the wrong key never yields data.** Let two processors of one type, new at first,
have been through whatever operations, and let the one have validated and refuse all that the
encryptors of the other one can produce. Then what the other one has stored of a value can be
loaded only if no leaf that is to be decrypted has an element, and it is that value; else loading
fails at the first such element, since it could not be decrypted. -/
theorem Work.load_foreign {a b : Work} (new : a.processor.New) (new' : b.processor.New)
    (same : b.processor.type = a.processor.type)
    (encrypts : .encrypt ∉ a.processor.type.overrides)
    (decrypts : .decrypt ∉ a.processor.type.overrides)
    (symmetric : a.processor.plans.Symmetric) (storing loading : List Operation)
    (valid : (b.after loading).processor.outcome = .ok ())
    (foreign : (a.after storing).processor.capabilities.Foreign
      (b.after loading).processor.capabilities)
    {value stored : Record} (h : (Session.store value (a.after storing)).1 = .ok stored) :
    ((∃ loaded, (Session.load stored (b.after loading)).1 = .ok loaded) ↔
        a.processor.type.Bare .decrypt value) ∧
      (∀ loaded, (Session.load stored (b.after loading)).1 = .ok loaded → loaded = value) ∧
      ∀ failure, (Session.load stored (b.after loading)).1 = .error failure →
        ∃ e k, failure = .transform e ∧ e.kind = .decryptFailed ∧ e.action = .decrypt ∧
          e.boundary = .load ∧ e.cause = .capability .decryptionFailed ∧
          FirstReached (a.processor.plans.forAction .decrypt) value k e.field := by
  obtain ⟨htype, hplans⟩ := a.after_fixed storing
  obtain ⟨htype', hplans'⟩ := b.after_fixed loading
  have hcompiled := new'.compiled_after loading
  have hshared : (b.after loading).processor.plans = a.processor.plans := by
    have hb := new'.compiled
    rw [same, new.compiled] at hb
    rw [hplans', ← Except.ok.inj hb]
  have hoverrides : .decrypt ∉ (b.after loading).processor.type.overrides := by
    rw [htype', same]
    exact decrypts
  obtain ⟨-, n, supply, hrun⟩ :=
    (Session.cross_single (a.after storing) rfl (by rw [htype]; exact encrypts)).mp h
  rw [hplans] at hrun
  have hbound : ∀ plan ∈ a.processor.plans.forAction .decrypt, ∃ t, Transform.bind
      (b.after loading).processor.capabilities .decrypt plan.parameter = .ok t := by
    intro plan hp
    obtain ⟨t, hbind, -⟩ :=
      (new'.covered_after loading valid).bind hcompiled hoverrides (hshared ▸ hp)
    exact ⟨t, hbind⟩
  have hbare : a.processor.type.Bare .decrypt value ↔
      Bare (a.processor.plans.forAction .decrypt) value := RecordType.bare_iff new.compiled
  rw [hbare]
  rcases traverse_foreign foreign symmetric.encrypted
    (encryptor_of_compile new.compiled (.inl rfl)) symmetric.same hbound hrun
    (b.after loading).entropy with ⟨hnone, m, supply', ht⟩ | ⟨k, field, supply', hreached, ht⟩
  · have hload : (Session.load stored (b.after loading)).1 = .ok value :=
      (Session.cross_single (b.after loading) rfl hoverrides).mpr
        ⟨valid, m, supply', by rw [hshared]; exact ht⟩
    rw [hload]
    refine ⟨⟨fun _ => hnone, fun _ => ⟨value, rfl⟩⟩, fun loaded hl => ?_, fun failure hf => ?_⟩
    · exact (Except.ok.inj hl).symm
    · cases hf
  · have hload : (Session.load stored (b.after loading)).1 = .error (.transform
        ⟨.decryptFailed, .decrypt, field, .capability .decryptionFailed⟩) :=
      Session.cross_single_error (b.after loading) rfl hoverrides valid
        (by rw [hshared]; exact ht)
    rw [hload]
    refine ⟨⟨fun hex => ?_, fun hnone => absurd hnone hreached.not_bare⟩, fun loaded hl => ?_,
      fun failure hf => ?_⟩
    · obtain ⟨loaded, hl⟩ := hex
      cases hl
    · cases hl
    · cases hf
      exact ⟨_, k, rfl, rfl, rfl, rfl, rfl, hreached⟩

theorem foreign_stamped {key other : UInt8} (h : key ≠ other) :
    (Encryptor.stamped key).Foreign (.stamped other) := by
  intro plaintext supply ciphertext hencrypt
  cases hencrypt
  exact if_neg h

open Sample in
/-- Tags that were stored under one key are not read with another one, unless there are none. -/
theorem Work.tags_unread :
    (∃ k, FirstReached (tagsPlanSet.forAction .decrypt)
        [(0, .leaf (.sequence ["a", "b"]))] k "tags[0]") ∧
      tagsType.Bare .decrypt [(0, .leaf (.sequence []))] := by
  have new : ∀ key, (stampedTags key).processor.New := fun key => ⟨by cbv, rfl⟩
  have symmetric : (stampedTags 1).processor.plans.Symmetric :=
    ⟨by decide, by decide, fun target => Iff.rfl⟩
  have foreign : (stampedTags 1).processor.capabilities.Foreign
      (stampedTags 2).processor.capabilities := by
    intro algorithm e e' he he'
    cases algorithm <;> cases he
    cases he'
    exact foreign_stamped (by decide)
  have hload := fun value stored (h : (Session.store value (stampedTags 1)).1 = .ok stored) =>
    load_foreign (new 1) (new 2) rfl (by decide) (by decide) symmetric [] [] rfl foreign h
  obtain ⟨-, -, hfails⟩ := hload [(0, .leaf (.sequence ["a", "b"]))] _ rfl
  obtain ⟨hbare, -, -⟩ := hload [(0, .leaf (.sequence []))] _ rfl
  obtain ⟨e, k, he, -, -, -, -, hfirst⟩ := hfails _ rfl
  cases he
  exact ⟨⟨k, hfirst⟩, hbare.mp ⟨_, rfl⟩⟩

end RecordPrivacy
