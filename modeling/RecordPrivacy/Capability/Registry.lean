import RecordPrivacy.Capability.Encryptor
import RecordPrivacy.Capability.Hasher
import RecordPrivacy.Capability.Masker
import RecordPrivacy.Plan

/-!
The capabilities that a processor may call, by identifier. Hashers and maskers start out built in;
encryptors need keys and start out missing. Registering replaces, nothing is ever removed.
Validation finds the first plan whose capability is missing, unless its action is overridden.
-/
namespace RecordPrivacy

structure Capabilities where
  encryptor? : EncryptionAlgorithm → Option Encryptor
  hasher? : HashAlgorithm → Option Hasher
  masker? : MaskFormat → Option Masker

/-- A plan names a capability that is not registered. -/
structure ValidationError where
  kind : CapabilityKind
  parameter : String
  field : String
  deriving DecidableEq, Repr

def ValidationError.message (e : ValidationError) : String :=
  s!"missing {e.kind.text} for {Text.quoted e.parameter} (field {e.field})"

namespace Capabilities

def builtin : Capabilities where
  encryptor? _ := none
  hasher? algorithm := some (Hasher.builtin algorithm)
  masker? format := some (Masker.builtin format)

/-! ### Registration -/

def insertEncryptor (c : Capabilities) (algorithm : EncryptionAlgorithm) (encryptor : Encryptor) :
    Capabilities :=
  { c with encryptor? := fun a => if a = algorithm then some encryptor else c.encryptor? a }

def insertHasher (c : Capabilities) (algorithm : HashAlgorithm) (hasher : Hasher) : Capabilities :=
  { c with hasher? := fun a => if a = algorithm then some hasher else c.hasher? a }

def insertMasker (c : Capabilities) (format : MaskFormat) (masker : Masker) : Capabilities :=
  { c with masker? := fun f => if f = format then some masker else c.masker? f }

/-! ### The registered identifiers, in the order of their enumerations -/

def encryptors (c : Capabilities) : List EncryptionAlgorithm :=
  EncryptionAlgorithm.all.filter fun a => (c.encryptor? a).isSome

def hashers (c : Capabilities) : List HashAlgorithm :=
  HashAlgorithm.all.filter fun a => (c.hasher? a).isSome

def maskers (c : Capabilities) : List MaskFormat :=
  MaskFormat.all.filter fun f => (c.masker? f).isSome

def describeList (labels : List String) : String :=
  "[" ++ String.intercalate ", " labels ++ "]"

def describe (c : Capabilities) : String :=
  "Capabilities \x7b encryptors: " ++ describeList (c.encryptors.map EncryptionAlgorithm.label) ++
    ", hashers: " ++ describeList (c.hashers.map HashAlgorithm.label) ++
    ", maskers: " ++ describeList (c.maskers.map MaskFormat.label) ++ " \x7d"

/-! ### Validation -/

/-- Whether a capability is registered for the parameter; a literal needs none. -/
def provides (c : Capabilities) : Parameter → Bool
  | .encryptor algorithm => (c.encryptor? algorithm).isSome
  | .hasher algorithm => (c.hasher? algorithm).isSome
  | .masker format => (c.masker? format).isSome
  | .literal _ => true

/-- What the plan lacks, if it lacks anything. -/
def gap? (c : Capabilities) (plan : FieldPlan) : Option ValidationError :=
  match plan.parameter.kind? with
  | none => none
  | some kind =>
    if c.provides plan.parameter then none else some ⟨kind, plan.parameter.text, plan.name⟩

/-- The actions whose plans need capabilities, in the order in which they are checked. -/
def checkedActions (overrides : List Action) : List Action :=
  [Action.hash, .decrypt, .encrypt, .mask].filter (· ∉ overrides)

def validate (c : Capabilities) (plans : PlanSet) (overrides : List Action) :
    Except ValidationError Unit :=
  match ((checkedActions overrides).flatMap plans.forAction).findSome? c.gap? with
  | some gap => .error gap
  | none => .ok ()

end Capabilities

end RecordPrivacy
