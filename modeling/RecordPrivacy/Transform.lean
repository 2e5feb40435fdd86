import RecordPrivacy.Capability.Registry
import RecordPrivacy.Record
import RecordPrivacy.TransformError

/-!
Transforms: an action bound to the capability that carries it out, applied to one text or one
buffer, and from there to a whole leaf, element by element. Encrypted text is kept as base64,
encrypted buffers as they are. The first element that fails ends the leaf; elements before it stay
transformed.
-/
namespace RecordPrivacy

inductive Transform where
  | encrypt (encryptor : Encryptor)
  | decrypt (encryptor : Encryptor)
  | hash (hasher : Hasher)
  | mask (masker : Masker)
  | redact (literal : String)

/-- An element of a leaf. -/
inductive Element where
  | whole
  | item (index : Nat)
  | entry (key : Key)
  deriving DecidableEq, Repr

/-- What follows the name of the field when the element is named. -/
def Element.suffix : Element → String
  | .whole => ""
  | .item index => s!"[{index}]"
  | .entry key => s!"[{key.shown}]"

namespace Transform

/-- The transform of a plan for an action; the capability may not be registered. -/
def bind (capabilities : Capabilities) (action : Action) (parameter : Parameter) :
    Except CapabilityError Transform :=
  match parameter with
  | .encryptor algorithm =>
    match capabilities.encryptor? algorithm with
    | some encryptor => .ok (if action = .decrypt then decrypt encryptor else encrypt encryptor)
    | none => .error (.notRegistered .encryptor parameter.text)
  | .hasher algorithm =>
    match capabilities.hasher? algorithm with
    | some hasher => .ok (hash hasher)
    | none => .error (.notRegistered .hasher parameter.text)
  | .masker format =>
    match capabilities.masker? format with
    | some masker => .ok (mask masker)
    | none => .error (.notRegistered .masker parameter.text)
  | .literal text => .ok (redact text)

def action : Transform → Action
  | .encrypt _ => .encrypt
  | .decrypt _ => .decrypt
  | .hash _ => .hash
  | .mask _ => .mask
  | .redact _ => .redact

/-- The failure that an error of the transform's capability amounts to. -/
def failure (t : Transform) (e : CapabilityError) : Failure :=
  ⟨.ofAction t.action, .capability e⟩

/-! ### One text, one buffer -/

/-- Decrypts stored text: base64 first, then the cipher, then UTF-8. -/
def decryptText (encryptor : Encryptor) (value : String) : Except Failure String :=
  match Base64.decode value with
  | .error fault => .error ⟨.encodingInvalid, .base64 fault⟩
  | .ok ciphertext =>
    match encryptor.decrypt ciphertext with
    | .error e => .error ((decrypt encryptor).failure e)
    | .ok plaintext =>
      match Utf8.decode plaintext with
      | .error fault => .error ⟨.decryptFailed, .utf8 fault⟩
      | .ok text => .ok text

/-- Masks a buffer that holds text. -/
def maskBytes (masker : Masker) (value : Bytes) : Except Failure Bytes :=
  match Utf8.decode value with
  | .error fault => .error ⟨.maskFailed, .utf8 fault⟩
  | .ok text => ((masker.mask text).mapError (mask masker).failure).map Utf8.encode

def text (t : Transform) (value : String) : Drawn (Except Failure String) :=
  match t with
  | .encrypt encryptor => do
    let result ← encryptor.encrypt (Utf8.encode value)
    return (result.mapError t.failure).map Base64.encode
  | .decrypt encryptor => return decryptText encryptor value
  | .hash hasher => do
    let result ← hasher.hash (Utf8.encode value)
    return result.mapError t.failure
  | .mask masker => return (masker.mask value).mapError t.failure
  | .redact literal => return .ok literal

def bytes (t : Transform) (value : Bytes) : Drawn (Except Failure Bytes) :=
  match t with
  | .encrypt encryptor => do
    let result ← encryptor.encrypt value
    return result.mapError t.failure
  | .decrypt encryptor => return (encryptor.decrypt value).mapError t.failure
  | .hash hasher => do
    let result ← hasher.hash value
    return (result.mapError t.failure).map Utf8.encode
  | .mask masker => return maskBytes masker value
  | .redact literal => return .ok (Utf8.encode literal)

/-! ### Leaves -/

/-- What becomes of elements: as they stand afterwards, with the first that failed, if one did. -/
abbrev Outcome (α : Type) := α × Option (Element × Failure)

/-- The items from `index` on, in order. -/
def items (t : Transform) : (index : Nat) → List String → Drawn (Outcome (List String))
  | _, [] => return ([], none)
  | index, item :: rest => do
    match ← t.text item with
    | .error fault => return (item :: rest, some (.item index, fault))
    | .ok changed =>
      let (others, fault) ← t.items (index + 1) rest
      return (changed :: others, fault)

/-- The entries in their order; every result stays under its key. -/
def entries (t : Transform) : List (Key × String) → Drawn (Outcome (List (Key × String)))
  | [] => return ([], none)
  | (key, value) :: rest => do
    match ← t.text value with
    | .error fault => return ((key, value) :: rest, some (.entry key, fault))
    | .ok changed =>
      let (others, fault) ← t.entries rest
      return ((key, changed) :: others, fault)

def leaf (t : Transform) (value : Leaf) : Drawn (Outcome Leaf) :=
  match value with
  | .text text => do
    match ← t.text text with
    | .error fault => return (value, some (.whole, fault))
    | .ok changed => return (.text changed, none)
  | .bytes bytes => do
    match ← t.bytes bytes with
    | .error fault => return (value, some (.whole, fault))
    | .ok changed => return (.bytes changed, none)
  | .sequence list => do
    let (changed, fault) ← t.items 0 list
    return (.sequence changed, fault)
  | .mapping list => do
    let (changed, fault) ← t.entries list
    return (.mapping changed, fault)

end Transform

end RecordPrivacy
