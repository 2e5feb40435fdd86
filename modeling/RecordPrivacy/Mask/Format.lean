import RecordPrivacy.Capability.Error
import RecordPrivacy.Mask.Digits
import RecordPrivacy.Mask.Address
import RecordPrivacy.Mask.Code
import RecordPrivacy.Mask.Person

/-!
The built-in mask of every format, on characters and on text.
-/
namespace RecordPrivacy.MaskFormat

/-- The mask of the format, or why the text does not have it. -/
def apply : MaskFormat → List Char → Except String (List Char)
  | .ssn => Mask.ssn
  | .email => Mask.email
  | .phone => Mask.phone
  | .card => Mask.card
  | .ip => Mask.ip
  | .uuid => Mask.uuid
  | .iban => Mask.iban
  | .name => Mask.name

def mask (format : MaskFormat) (text : String) : Except CapabilityError String :=
  match format.apply text.toList with
  | .ok masked => .ok (String.ofList masked)
  | .error reason => .error (.invalidFormat format reason)

end RecordPrivacy.MaskFormat
