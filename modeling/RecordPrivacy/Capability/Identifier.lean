import RecordPrivacy.Text.Quoted

/-!
The names by which directives select a capability: encryption algorithms, hash algorithms and mask
formats. A name that is none of them is refused where it is read, with the kind of name that was
expected.
-/
namespace RecordPrivacy

/-- The three registries that a capability may live in. -/
inductive CapabilityKind where
  | encryptor
  | hasher
  | masker
  deriving DecidableEq, Repr

def CapabilityKind.text : CapabilityKind → String
  | .encryptor => "encryptor"
  | .hasher => "hasher"
  | .masker => "masker"

inductive EncryptionAlgorithm where
  | aes
  | rsa
  | envelope
  deriving DecidableEq, Repr

inductive HashAlgorithm where
  | argon2
  | bcrypt
  | sha256
  | sha512
  deriving DecidableEq, Repr

inductive MaskFormat where
  | ssn
  | email
  | phone
  | card
  | ip
  | uuid
  | iban
  | name
  deriving DecidableEq, Repr

structure UnknownIdentifier where
  kind : CapabilityKind
  value : String
  deriving DecidableEq, Repr

def UnknownIdentifier.message (e : UnknownIdentifier) : String :=
  s!"unknown {e.kind.text} identifier {Text.quoted e.value}"

namespace EncryptionAlgorithm

def all : List EncryptionAlgorithm := [.aes, .rsa, .envelope]

def text : EncryptionAlgorithm → String
  | .aes => "aes"
  | .rsa => "rsa"
  | .envelope => "envelope"

/-- The capitalised name, as diagnostics show it. -/
def label : EncryptionAlgorithm → String
  | .aes => "Aes"
  | .rsa => "Rsa"
  | .envelope => "Envelope"

def ofText? (text : String) : Option EncryptionAlgorithm :=
  all.find? (·.text == text)

def ofText (text : String) : Except UnknownIdentifier EncryptionAlgorithm :=
  match ofText? text with
  | some algorithm => .ok algorithm
  | none => .error ⟨.encryptor, text⟩

end EncryptionAlgorithm

namespace HashAlgorithm

def all : List HashAlgorithm := [.argon2, .bcrypt, .sha256, .sha512]

def text : HashAlgorithm → String
  | .argon2 => "argon2"
  | .bcrypt => "bcrypt"
  | .sha256 => "sha256"
  | .sha512 => "sha512"

/-- The capitalised name, as diagnostics show it. -/
def label : HashAlgorithm → String
  | .argon2 => "Argon2"
  | .bcrypt => "Bcrypt"
  | .sha256 => "Sha256"
  | .sha512 => "Sha512"

def ofText? (text : String) : Option HashAlgorithm :=
  all.find? (·.text == text)

def ofText (text : String) : Except UnknownIdentifier HashAlgorithm :=
  match ofText? text with
  | some algorithm => .ok algorithm
  | none => .error ⟨.hasher, text⟩

end HashAlgorithm

namespace MaskFormat

def all : List MaskFormat := [.ssn, .email, .phone, .card, .ip, .uuid, .iban, .name]

def text : MaskFormat → String
  | .ssn => "ssn"
  | .email => "email"
  | .phone => "phone"
  | .card => "card"
  | .ip => "ip"
  | .uuid => "uuid"
  | .iban => "iban"
  | .name => "name"

/-- The capitalised name, as diagnostics show it. -/
def label : MaskFormat → String
  | .ssn => "Ssn"
  | .email => "Email"
  | .phone => "Phone"
  | .card => "Card"
  | .ip => "Ip"
  | .uuid => "Uuid"
  | .iban => "Iban"
  | .name => "Name"

def ofText? (text : String) : Option MaskFormat :=
  all.find? (·.text == text)

def ofText (text : String) : Except UnknownIdentifier MaskFormat :=
  match ofText? text with
  | some format => .ok format
  | none => .error ⟨.masker, text⟩

end MaskFormat

end RecordPrivacy
