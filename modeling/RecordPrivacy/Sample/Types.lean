import RecordPrivacy.Description

/-!
A catalogue of record types: people and their accounts, documents, nested and recursive records,
types whose directives do not compile, and types that bring overrides along.
-/
namespace RecordPrivacy.Sample

abbrev typeCount : Nat := 27

abbrev TypeId := Fin typeCount

abbrev Field := Nat → FieldDescription typeCount

/-! ### Fields -/

/-- A field that boundaries do not touch. -/
def plain (name : String) (form : DataForm) : Field := fun index =>
  ⟨index, name, name, none, .data form⟩

def leafWith (name memberName : String) (shape : Shape) (form : Form typeCount)
    (directives : List Directive) : Field := fun index =>
  ⟨index, name, memberName, some (.leaf shape directives), form⟩

def text (name : String) (directives : List Directive) : Field :=
  leafWith name name .text .text directives

def bytes (name : String) (directives : List Directive) : Field :=
  leafWith name name .bytes .bytes directives

def sequence (name : String) (directives : List Directive) : Field :=
  leafWith name name .sequence .sequence directives

def mapping (name : String) (keys : KeyForm) (directives : List Directive) : Field :=
  leafWith name name .mapping (.mapping keys) directives

def nested (name : String) (type : TypeId) : Field := fun index =>
  ⟨index, name, name, some (.nested false type), .record type⟩

def optional (name : String) (type : TypeId) : Field := fun index =>
  ⟨index, name, name, some (.nested true type), .optional type⟩

def hash (parameter : String) : Directive := ⟨.hash, parameter⟩

def mask (parameter : String) : Directive := ⟨.mask, parameter⟩

def redact (parameter : String) : Directive := ⟨.redact, parameter⟩

def encrypt (parameter : String) : Directive := ⟨.encrypt, parameter⟩

def decrypt (parameter : String) : Directive := ⟨.decrypt, parameter⟩

/-- Encrypted in storage. -/
def stored (algorithm : String) : List Directive := [encrypt algorithm, decrypt algorithm]

/-! ### Types -/

/-- A type of the catalogue: the name it is asked for by, its own name, and its fields in order. -/
structure Entry where
  key : String
  name : String
  style : Style
  fields : List Field
  overrides : List Action

def simple (name : String) (fields : List Field) : Entry :=
  ⟨name, name, .named, fields, []⟩

/-- A type with a parameter, for one choice of it. -/
def instantiated (key name : String) (fields : List Field) : Entry :=
  ⟨key, name, .named, fields, []⟩

def wrapperFields (inner : TypeId) : List Field :=
  [nested "inner" inner, text "trace" [redact "-"]]

def entries : List Entry := [
  simple "User" [plain "name" .text, text "ssn" (stored "aes" ++ [mask "ssn"]),
    text "email" [mask "email"], text "password" [hash "sha256", redact "[REDACTED]"]],
  simple "Address" [text "street" [mask "name"], plain "city" .text],
  simple "Customer" [nested "home" 1, optional "billing" 1, nested "previous" 1, optional "work" 1],
  simple "Profile" [sequence "contacts" [mask "email"], mapping "notes" .text (stored "aes"),
    mapping "labels" .number [redact "***"]],
  ⟨"Pair", "Pair", .tuple, [plain "0" .text, text "1" [mask "ssn"]], []⟩,
  ⟨"Unit", "Unit", .unit, [], []⟩,
  instantiated "Wrapper<Address>" "Wrapper" (wrapperFields 1),
  instantiated "Wrapper<Pair>" "Wrapper" (wrapperFields 4),
  instantiated "Wrapper<Wrapper<Pair>>" "Wrapper" (wrapperFields 7),
  instantiated "Tagged<Vec<u32>>" "Tagged" [text "secret" [redact "x"], plain "meta" .numbers],
  instantiated "Tagged<String>" "Tagged" [text "secret" [redact "x"], plain "meta" .text],
  simple "Patient" [plain "name" .text, text "ssn" (stored "aes" ++ [mask "ssn"]),
    text "password" [hash "sha512", redact ""], optional "contact" 12],
  simple "Contact" [text "phone" [mask "phone"]],
  simple "Account" [text "token" (stored "aes"), bytes "blob" (stored "envelope"),
    sequence "history" (stored "aes"), mapping "attributes" .text (stored "aes"),
    optional "owner" 14, plain "plain" .text],
  simple "Owner" [text "name" (stored "aes" ++ [mask "name"]), text "note" [redact "[REDACTED]"]],
  simple "Hidden" [text "email" [mask "email", redact "[hidden]"]],
  simple "Document" [bytes "body" (stored "aes" ++ [mask "card"]),
    bytes "digest" [hash "sha512", redact "gone"]],
  simple "Secrets" [text "token" (stored "envelope"), text "recovery" (stored "rsa")],
  simple "Mixed" [plain "maybe" .optionalText, plain "count" .number, plain "flag" .flag,
    plain "boxed" .text, text "ip" [mask "ip"], sequence "ids" [mask "uuid", hash "sha256"],
    leafWith "r#type" "type" .text .text [mask "iban"], plain "ratio" .numbers],
  simple "Typo" [text "email" [mask "emial"]],
  simple "Node" [text "label" [redact "x"], optional "next" 20],
  simple "Passport" [text "number" [mask "passport"]],
  simple "Holder" [optional "passport" 21],
  ⟨"Login", "Login", .named, [plain "user" .text, text "password" [hash "sha256"]], [.hash]⟩,
  ⟨"Vault", "Vault", .named, [text "secret" (stored "aes")], [.encrypt]⟩,
  ⟨"Custom", "Custom", .named, [text "value" [hash "argon2", decrypt "rsa", encrypt "envelope",
    mask "uuid", redact "never"]], [.hash, .decrypt, .encrypt, .mask, .redact]⟩,
  simple "Desk" [nested "login" 23, optional "custom" 25]]

theorem length_entries : entries.length = typeCount := rfl

def entry (type : TypeId) : Entry :=
  entries.get (type.cast length_entries.symm)

/-- The catalogue as descriptions; the index of a field is its place in the declaration. -/
def descriptions : Descriptions typeCount := fun type =>
  ⟨(entry type).name, (entry type).style,
    (entry type).fields.mapIdx fun index field => field index⟩

/-- The type that is asked for by a name. -/
def find? (key : String) : Option TypeId :=
  (List.finRange typeCount).find? fun type => (entry type).key == key

end RecordPrivacy.Sample
