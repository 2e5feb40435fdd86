import RecordPrivacy.Mask.Format

/-!
Maskers hide part of a text that has a certain format, and refuse a text that does not have it.
-/
namespace RecordPrivacy

structure Masker where
  mask : String → Except CapabilityError String

def Masker.builtin (format : MaskFormat) : Masker :=
  ⟨format.mask⟩

end RecordPrivacy
