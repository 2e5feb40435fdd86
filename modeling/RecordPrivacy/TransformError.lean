import RecordPrivacy.Boundary
import RecordPrivacy.Capability.Error
import RecordPrivacy.Text.Base64

/-!
Failed transforms: what failed, for which action, at which field, and why. The boundary is the one
that the action belongs to.
-/
namespace RecordPrivacy

inductive FailureKind where
  | encodingInvalid
  | encryptFailed
  | decryptFailed
  | hashFailed
  | maskFailed
  | redactFailed
  deriving DecidableEq, Repr

namespace FailureKind

/-- The kind of failure that an action's capability causes. -/
def ofAction : Action → FailureKind
  | .hash => .hashFailed
  | .decrypt => .decryptFailed
  | .encrypt => .encryptFailed
  | .mask => .maskFailed
  | .redact => .redactFailed

def text : FailureKind → String
  | .encodingInvalid => "encoding-invalid"
  | .encryptFailed => "encrypt-failed"
  | .decryptFailed => "decrypt-failed"
  | .hashFailed => "hash-failed"
  | .maskFailed => "mask-failed"
  | .redactFailed => "redact-failed"

/-- The capitalised name, as diagnostics show it. -/
def label : FailureKind → String
  | .encodingInvalid => "EncodingInvalid"
  | .encryptFailed => "EncryptFailed"
  | .decryptFailed => "DecryptFailed"
  | .hashFailed => "HashFailed"
  | .maskFailed => "MaskFailed"
  | .redactFailed => "RedactFailed"

end FailureKind

inductive Cause where
  | capability (error : CapabilityError)
  | base64 (fault : Base64.Fault)
  | utf8 (fault : Utf8.Fault)
  deriving DecidableEq, Repr

def Cause.message : Cause → String
  | .capability error => error.message
  | .base64 fault => fault.message
  | .utf8 fault => fault.message

/-- A failure before it is known where it happened. -/
structure Failure where
  kind : FailureKind
  cause : Cause
  deriving DecidableEq, Repr

structure TransformError where
  kind : FailureKind
  action : Action
  field : String
  cause : Cause
  deriving DecidableEq, Repr

namespace TransformError

def boundary (e : TransformError) : Boundary :=
  e.action.boundary

def message (e : TransformError) : String :=
  s!"{e.action.text} field {e.field} on {e.boundary.text}: {e.kind.text}: {e.cause.message}"

end TransformError

end RecordPrivacy
