import RecordPrivacy.Proofs.Capability.Message

/-! Envelopes.

An envelope says in its first two bytes how long the sealed data key is that follows them; what is
left is the message. Nothing checks that length against the one that sealing gives, but it is the only
one with which an envelope opens: what opens under the master key must be a data key of 32 bytes, and
sealing makes 60 of them (`openEnvelope_ok_iff_layout`). -/
namespace RecordPrivacy.Aead
variable {aead : Aead} {master : SymmetricKey} {front wrapped data dataKey plaintext envelope : Bytes}
  {supply : Entropy}

/-! ### The parts of an envelope -/

/-- The length that an envelope announces for the sealed data key. -/
def announced (envelope : Bytes) : Nat :=
  Bytes.toNatBE (envelope.take 2)

theorem announced_append (h : front.length = 2) (rest : Bytes) :
    announced (front ++ rest) = Bytes.toNatBE front := by
  rw [announced, List.take_left' h]

theorem splitEnvelope_append (hfront : front.length = 2)
    (hwrapped : wrapped.length = Bytes.toNatBE front) :
    splitEnvelope (front ++ (wrapped ++ data)) = some (wrapped, data) := by
  match front, hfront with
  | [high, low], _ =>
    simp only [List.cons_append, List.nil_append, splitEnvelope]
    rw [if_neg (by rw [List.length_append, hwrapped]; omega), List.take_left' hwrapped,
      List.drop_left' hwrapped]

theorem splitEnvelope_eq_none_iff : splitEnvelope envelope = none ↔
    envelope.length < 2 ∨ envelope.length - 2 < announced envelope := by
  match envelope with
  | [] | [_] => simp [splitEnvelope]
  | high :: low :: rest =>
    have hannounced : announced (high :: low :: rest) = Bytes.toNatBE [high, low] := rfl
    have hlength : (high :: low :: rest).length = rest.length + 2 := rfl
    rw [hannounced, hlength, Nat.add_sub_cancel, splitEnvelope]
    by_cases h : rest.length < Bytes.toNatBE [high, low]
    · exact iff_of_true (if_pos h) (.inr h)
    · exact iff_of_false (by rw [if_neg h]; exact Option.some_ne_none _) (by omega)

theorem splitEnvelope_eq_some_iff : splitEnvelope envelope = some (wrapped, data) ↔
    ∃ front, front.length = 2 ∧ envelope = front ++ (wrapped ++ data) ∧
      wrapped.length = Bytes.toNatBE front := by
  constructor
  · intro h
    match envelope with
    | [] | [_] => cases h
    | high :: low :: rest =>
      rw [splitEnvelope] at h
      split at h
      · cases h
      · cases h
        refine ⟨[high, low], rfl, ?_, by rw [List.length_take]; omega⟩
        rw [List.take_append_drop]
        rfl
  · rintro ⟨front, hfront, rfl, hwrapped⟩
    exact splitEnvelope_append hfront hwrapped

/-- The parts lie where the announced length says. -/
theorem parts_of_splitEnvelope (h : splitEnvelope envelope = some (wrapped, data)) :
    wrapped = (envelope.drop 2).take (announced envelope) ∧
      data = envelope.drop (2 + announced envelope) ∧ wrapped.length = announced envelope ∧
      envelope.length = 2 + announced envelope + data.length := by
  obtain ⟨front, hfront, rfl, hwrapped⟩ := splitEnvelope_eq_some_iff.mp h
  rw [announced_append hfront, ← hwrapped, ← List.drop_drop, List.drop_left' hfront,
    List.take_left, List.drop_left, List.length_append, List.length_append, hfront]
  exact ⟨rfl, rfl, rfl, by omega⟩

/-! ### Sealing -/

/-- The envelope holds the plaintext under one data key or another. -/
def Enveloped (aead : Aead) (master : SymmetricKey) (plaintext envelope : Bytes) : Prop :=
  ∃ dataKey wrapped data, dataKey.length = dataKeySize ∧
    aead.Sealed master.bytes dataKey wrapped ∧ aead.Sealed dataKey plaintext data ∧
    envelope = Bytes.ofNatBE 2 wrapped.length ++ wrapped ++ data

theorem enveloped_of_sealEnvelope
    (h : (aead.sealEnvelope master plaintext supply).1 = .ok envelope) :
    aead.Enveloped master plaintext envelope := by
  simp only [sealEnvelope, State.bind_apply] at h
  have hkey := Entropy.length_draw dataKeySize supply
  generalize Entropy.draw dataKeySize supply = drawn at h hkey
  cases hdata : (aead.sealMessage drawn.1 plaintext drawn.2).1 with
  | error e =>
    rw [hdata] at h
    cases h
  | ok data =>
    rw [hdata] at h
    generalize (aead.sealMessage drawn.1 plaintext drawn.2).2 = supply' at h
    simp only [State.bind_apply] at h
    cases hwrapped : (aead.sealMessage master.bytes drawn.1 supply').1 with
    | error e =>
      rw [hwrapped] at h
      cases h
    | ok wrapped =>
      rw [hwrapped] at h
      dsimp only at h
      split at h
      · cases h
      · cases h
        exact ⟨drawn.1, wrapped, data, hkey, sealed_of_sealMessage hwrapped,
          sealed_of_sealMessage hdata, rfl⟩

/-- A sealed data key is never too long for the two bytes that hold its length. -/
theorem sealEnvelope_ok (seals : aead.Seals) (tags : aead.Tags) (master : SymmetricKey)
    (within : plaintext.length ≤ plaintextLimit) (supply : Entropy) :
    ∃ envelope, (aead.sealEnvelope master plaintext supply).1 = .ok envelope := by
  simp only [sealEnvelope, State.bind_apply]
  have hkey := Entropy.length_draw dataKeySize supply
  generalize Entropy.draw dataKeySize supply = drawn at hkey ⊢
  obtain ⟨data, hdata⟩ := sealMessage_ok seals (.inr (.inr hkey)) within drawn.2
  rw [hdata]
  generalize (aead.sealMessage drawn.1 plaintext drawn.2).2 = supply'
  simp only [State.bind_apply]
  have hlimit : drawn.1.length ≤ plaintextLimit := by rw [hkey]; decide
  obtain ⟨wrapped, hwrapped⟩ := sealMessage_ok seals master.size_ok hlimit supply'
  have hlength := (sealed_of_sealMessage hwrapped).length_eq tags master.size_ok
  rw [hwrapped]
  dsimp only
  rw [if_neg (by rw [hlength, hkey]; decide)]
  exact ⟨_, rfl⟩

/-- The parts of an envelope have the sizes that sealing gives. -/
theorem Enveloped.parts (tags : aead.Tags) (h : aead.Enveloped master plaintext envelope) :
    ∃ dataKey wrapped data, dataKey.length = dataKeySize ∧
      aead.Sealed master.bytes dataKey wrapped ∧ aead.Sealed dataKey plaintext data ∧
      wrapped.length = 60 ∧ data.length = plaintext.length + 28 ∧
      envelope = [0, 60] ++ (wrapped ++ data) := by
  obtain ⟨dataKey, wrapped, data, hkey, hwrapped, hdata, rfl⟩ := h
  have hsize : wrapped.length = 60 := by rw [hwrapped.length_eq tags master.size_ok, hkey]; rfl
  refine ⟨dataKey, wrapped, data, hkey, hwrapped, hdata, hsize,
    hdata.length_eq tags (.inr (.inr hkey)), ?_⟩
  rw [hsize, List.append_assoc]
  rfl

/-! ### Opening -/

theorem openEnvelope_of_split (h : splitEnvelope envelope = some (wrapped, data)) :
    aead.openEnvelope master envelope =
      match aead.openMessage master.bytes wrapped with
      | .error e => .error e
      | .ok dataKey =>
        if dataKey.length = dataKeySize then aead.openMessage dataKey data
        else .error .decryptionFailed := by
  cases hopen : aead.openMessage master.bytes wrapped <;> simp only [openEnvelope, h, hopen]

theorem openEnvelope_ok_iff : aead.openEnvelope master envelope = .ok plaintext ↔
    ∃ wrapped data dataKey, splitEnvelope envelope = some (wrapped, data) ∧
      aead.openMessage master.bytes wrapped = .ok dataKey ∧ dataKey.length = dataKeySize ∧
      aead.openMessage dataKey data = .ok plaintext := by
  constructor
  · intro h
    cases hsplit : splitEnvelope envelope with
    | none =>
      rw [openEnvelope, hsplit] at h
      cases h
    | some parts =>
      obtain ⟨wrapped, data⟩ := parts
      rw [openEnvelope_of_split hsplit] at h
      split at h
      · cases h
      · next dataKey hkey =>
        split at h
        · next hsize => exact ⟨wrapped, data, dataKey, rfl, hkey, hsize, h⟩
        · cases h
  · rintro ⟨wrapped, data, dataKey, hsplit, hkey, hsize, hopen⟩
    rw [openEnvelope_of_split hsplit, hkey]
    exact (if_pos hsize).trans hopen

theorem Enveloped.opens (opens : aead.Opens) (tags : aead.Tags)
    (h : aead.Enveloped master plaintext envelope) :
    aead.openEnvelope master envelope = .ok plaintext := by
  obtain ⟨dataKey, wrapped, data, hkey, hwrapped, hdata, hsize, -, rfl⟩ := h.parts tags
  exact openEnvelope_ok_iff.mpr ⟨wrapped, data, dataKey, splitEnvelope_append rfl hsize,
    hwrapped.opens opens master.size_ok, hkey, hdata.opens opens (.inr (.inr hkey))⟩

/-- The one layout of an envelope: 60 in two bytes, a data key of 32 bytes sealed in 60, and the
message. -/
structure Layout (aead : Aead) (master : SymmetricKey) (envelope plaintext : Bytes) : Prop where
  length_eq : envelope.length = plaintext.length + 90
  front_eq : envelope.take 2 = Bytes.ofNatBE 2 60
  opens : ∃ dataKey, dataKey.length = dataKeySize ∧
    aead.openMessage master.bytes ((envelope.drop 2).take 60) = .ok dataKey ∧
    aead.openMessage dataKey (envelope.drop 62) = .ok plaintext

/-- Two bytes are spelled in one way only. -/
theorem front_of_toNatBE {front front' : Bytes} (h : front.length = 2) (h' : front'.length = 2)
    (heq : Bytes.toNatBE front = Bytes.toNatBE front') : front = front' := by
  match front, front', h, h' with
  | [a, b], [c, d], _, _ =>
    have ha := a.toNat_lt
    have hb := b.toNat_lt
    have hc := c.toNat_lt
    have hd := d.toNat_lt
    simp only [Bytes.toNatBE, List.foldl_cons, List.foldl_nil] at heq
    rw [UInt8.toNat_inj.mp (show a.toNat = c.toNat by omega),
      UInt8.toNat_inj.mp (show b.toNat = d.toNat by omega)]

/-- A sealed data key of the right size takes 60 bytes. -/
theorem length_wrapped (exact : aead.Exact)
    (h : aead.openMessage master.bytes wrapped = .ok dataKey) (hkey : dataKey.length = dataKeySize) :
    wrapped.length = 60 := by
  rw [length_of_openMessage exact master.size_ok h, hkey]
  rfl

/-- **What opens has the layout, and what has the layout opens.** -/
theorem openEnvelope_ok_iff_layout (exact : aead.Exact) :
    aead.openEnvelope master envelope = .ok plaintext ↔ aead.Layout master envelope plaintext := by
  constructor
  · intro h
    obtain ⟨wrapped, data, dataKey, hsplit, hwrapped, hkey, hdata⟩ := openEnvelope_ok_iff.mp h
    have hsize := length_wrapped exact hwrapped hkey
    have hlength := length_of_openMessage exact (.inr (.inr hkey)) hdata
    obtain ⟨hplace, hrest, hannounced, htotal⟩ := parts_of_splitEnvelope hsplit
    rw [← hannounced, hsize] at hplace hrest htotal
    refine ⟨?_, ?_, dataKey, hkey, hplace ▸ hwrapped, hrest ▸ hdata⟩
    · rw [htotal, hlength]
      simp only [nonceSize, tagSize]
      omega
    · refine front_of_toNatBE (by rw [List.length_take]; omega) rfl ?_
      show announced envelope = 60
      rw [← hannounced, hsize]
  · rintro ⟨hlength, hfront, dataKey, hkey, hwrapped, hdata⟩
    refine openEnvelope_ok_iff.mpr ⟨(envelope.drop 2).take 60, envelope.drop 62, dataKey, ?_,
      hwrapped, hkey, hdata⟩
    refine splitEnvelope_eq_some_iff.mpr ⟨envelope.take 2, ?_, ?_, ?_⟩
    · rw [hfront]
      rfl
    · rw [← List.drop_drop (i := 60) (j := 2), List.take_append_drop, List.take_append_drop]
    · rw [hfront, List.length_take, List.length_drop, hlength]
      show min 60 _ = 60
      omega

end RecordPrivacy.Aead
