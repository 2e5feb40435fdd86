import RecordPrivacy.Sample.Types

/-!
The overrides of the catalogue: a login that hashes its password together with the user, a vault
that keeps its secret encrypted in hexadecimal, and a type that does everything its own way.
-/
namespace RecordPrivacy.Sample

def textAt (record : Record) (index : Nat) : String :=
  match record.content? index with
  | some (.leaf (.text value)) => value
  | some (.hidden (.text value)) => value
  | _ => ""

/-- Sets the text at an index to the result, if there is one. -/
def putText (record : Record) (index : Nat) (result : Except CapabilityError String) :
    Record × Option (Except CapabilityError Unit) :=
  match result with
  | .ok value => (record.put index (.leaf (.text value)), some (.ok ()))
  | .error e => (record, some (.error e))

def hashLogin (capabilities : Capabilities) (record : Record) :
    Drawn (Record × Option (Except CapabilityError Unit)) := do
  match capabilities.hasher? .sha256 with
  | none => return putText record 1 (.error (.missingKey "sha256"))
  | some hasher =>
    let result ← hasher.hash (Utf8.encode (textAt record 0 ++ ":" ++ textAt record 1))
    return putText record 1 result

def encryptVault (capabilities : Capabilities) (record : Record) :
    Drawn (Record × Option (Except CapabilityError Unit)) := do
  match capabilities.encryptor? .aes with
  | none => return putText record 0 (.error (.missingKey "aes"))
  | some encryptor =>
    let result ← encryptor.encrypt (Utf8.encode (textAt record 0))
    return putText record 0 (result.map Bytes.toHex)

/-- Whether the pattern occurs in the text. -/
def contains (pattern : List Char) : List Char → Bool
  | [] => pattern.isEmpty
  | c :: rest => pattern.isPrefixOf (c :: rest) || contains pattern rest

def customText (capabilities : Capabilities) (value : String) :
    Action → Except CapabilityError String
  | .hash => .ok s!"hash{capabilities.hashers.length}:{value}"
  | .decrypt =>
    if capabilities.encryptors.isEmpty then .error .decryptionFailed
    else .ok s!"decrypt{capabilities.encryptors.length}:{value}"
  | .encrypt => .ok s!"encrypt{capabilities.encryptors.length}:{value}"
  | .mask =>
    match capabilities.masker? .name with
    | none => .error (.missingKey "name")
    | some masker =>
      (masker.mask value).map fun masked => s!"mask{capabilities.maskers.length}:{masked}"
  | .redact =>
    if contains "refuse".toList value.toList then .error (.other "refused")
    else .ok ("redact:" ++ value)

def override (type : TypeId) : Override := fun action capabilities record =>
  match (entry type).key, action with
  | "Login", .hash => hashLogin capabilities record
  | "Vault", .encrypt => encryptVault capabilities record
  | "Custom", action => return putText record 0 (customText capabilities (textAt record 0) action)
  | _, _ => return (record, none)

def recordType (type : TypeId) : RecordType :=
  descriptions.recordType type (entry type).overrides (override type)

end RecordPrivacy.Sample
