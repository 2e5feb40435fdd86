import RecordPrivacy.Declaration.Outline

/-!
A declared person: a number, a home that may be absent, a name, and a number with a directive that
comes to nothing, since numbers are not transformed.
-/
namespace RecordPrivacy.Declaration.Sample

/-- A type that is a name alone. -/
def named (name : String) : TypeExpr :=
  .path false [] name .none

/-- A type with one argument. -/
def applied (name : String) (argument : TypeExpr) : TypeExpr :=
  .path false [] name (.angled false [.ofType argument] false)

def bareGuard : Attribute := ⟨some "guard", .bare⟩

/-- The guard that asks for a name to be masked when it is sent. -/
def maskGuard : Attribute :=
  ⟨some "guard", .list [.word "send", .group .parenthesis
    [.word "mask", .sign '=' false, .literal "\"name\"" (some "name")]]⟩

def personFields : List DeclaredField :=
  [⟨[], "id", named "u64"⟩, ⟨[bareGuard], "home", applied "Option" (applied "Box" (named "Home"))⟩,
    ⟨[maskGuard], "name", named "String"⟩, ⟨[maskGuard], "count", named "u64"⟩]

def person : Item :=
  ⟨[], "Person", ⟨[], false, [], false⟩, .record personFields⟩

def personPlaced : List PlacedField :=
  [⟨0, ⟨[], "id", named "u64"⟩, .untouched⟩,
    ⟨1, ⟨[bareGuard], "home", applied "Option" (applied "Box" (named "Home"))⟩, .nested⟩,
    ⟨2, ⟨[maskGuard], "name", named "String"⟩, .directives [⟨.mask, "name"⟩]⟩,
    ⟨3, ⟨[maskGuard], "count", named "u64"⟩, .directives [⟨.mask, "name"⟩]⟩]

def personOutline : Outline :=
  .ofFields "fieldguard" person [] personPlaced

end RecordPrivacy.Declaration.Sample
