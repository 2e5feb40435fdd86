import RecordPrivacy.Declaration.Outline
import RecordPrivacy.Description

/-!
How a record carries out the actions that it overrides. A type has implementations of its own, each
of which is given the registry of one kind of capability, or none. The calls of an outline stand in
arms, one for each overridden action in order; an action runs the call of its first arm, and without
one it is declined, as it is by a type that overrides nothing.
-/
namespace RecordPrivacy.Declaration

/-- An implementation changes the record, and may fail. -/
abbrev OwnAction := Record → Drawn (Record × Except CapabilityError Unit)

/-- The implementations that a type has of its own. -/
structure OwnActions where
  hash : (HashAlgorithm → Option Hasher) → OwnAction
  decrypt : (EncryptionAlgorithm → Option Encryptor) → OwnAction
  encrypt : (EncryptionAlgorithm → Option Encryptor) → OwnAction
  mask : (MaskFormat → Option Masker) → OwnAction
  redact : OwnAction

/-- What a call runs; there is no implementation that takes a registry of another kind. -/
def OverrideCall.run? (own : OwnActions) (c : Capabilities) : OverrideCall → Option OwnAction
  | ⟨"Hashable", some .hasher⟩ => some (own.hash c.hasher?)
  | ⟨"Decryptable", some .encryptor⟩ => some (own.decrypt c.encryptor?)
  | ⟨"Encryptable", some .encryptor⟩ => some (own.encrypt c.encryptor?)
  | ⟨"Maskable", some .masker⟩ => some (own.mask c.masker?)
  | ⟨"Redactable", none⟩ => some own.redact
  | _ => none

namespace Outline

def callArms (o : Outline) : List (Action × OverrideCall) :=
  o.overrides.zip o.calls

/-- The override that the type gets. -/
def runOverride (o : Outline) (own : OwnActions) : Override := fun action c record =>
  match (o.callArms.lookup action).bind (OverrideCall.run? own c) with
  | none => Override.declining action c record
  | some run => do
    let (left, result) ← run record
    return (left, some result)

end Outline

end RecordPrivacy.Declaration
