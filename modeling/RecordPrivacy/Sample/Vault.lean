import RecordPrivacy.Processor
import RecordPrivacy.Sample.Capabilities
import RecordPrivacy.Sample.Forms
import RecordPrivacy.Sample.Supply

/-!
A processor of forms at work, with a predictable encryptor, and one of the tags that are nested in a
form, for trying things out.
-/
namespace RecordPrivacy.Sample

def formType : RecordType where
  size := 2
  family := formFamily
  root := formRoot
  overrides := []
  runOverride _ _ record := return (record, none)
  empty := []
  toJson _ := .error "no layout"

def vault : Work where
  processor :=
    { type := formType
      shared := ⟨0, formPlanSet⟩
      capabilities := Capabilities.builtin.insertEncryptor .aes (.xor 1)
      codec := none
      validation := none }
  entropy := supply
  history := []

/-- The same before it was given the encryptor. -/
def keylessVault : Work :=
  { vault with processor.capabilities := .builtin }

/-- The same with a masker that refuses the empty name. -/
def pickyVault : Work :=
  { vault with processor.capabilities := picky.insertEncryptor .aes (.xor 1) }

def tagsType : RecordType where
  size := 2
  family := formFamily
  root := .last 1
  overrides := []
  runOverride _ _ record := return (record, none)
  empty := []
  toJson _ := .error "no layout"

def tagsPlanSet : PlanSet where
  typeName := "Tags"
  entries := [(.encrypt, ⟨[0], [], "tags", .encryptor .aes, .sequence⟩),
    (.decrypt, ⟨[0], [], "tags", .encryptor .aes, .sequence⟩),
    (.mask, ⟨[0], [], "tags", .masker .name, .sequence⟩)]

/-- The tags of a form by themselves. -/
def pickyTags : Work :=
  { pickyVault with
    processor.type := tagsType
    processor.shared := ⟨1, tagsPlanSet⟩ }

/-- The same with a key of its own. -/
def stampedTags (key : UInt8) : Work :=
  { pickyTags with
    processor.capabilities := Capabilities.builtin.insertEncryptor .aes (.stamped key) }

end RecordPrivacy.Sample
