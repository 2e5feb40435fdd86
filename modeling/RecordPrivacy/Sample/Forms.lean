import RecordPrivacy.Capability.Registry
import RecordPrivacy.Record

/-!
A small record, the types that describe it and their plans, and a masker with a will of its own, for
trying things out.
-/
namespace RecordPrivacy.Sample

/-- A name, a nested record with two tags, one that was left out, a note, and data that no boundary
touches. -/
def form (name first second note : String) : Record :=
  [(0, .leaf (.text name)), (1, .optional (some [(0, .leaf (.sequence [first, second]))])),
    (2, .optional none), (3, .leaf (.mapping [(.text "a", note)])), (4, .hidden .null)]

/-- What is done to a leaf of the form: it is kept encrypted and shown masked. -/
def formDirectives : List Directive :=
  [⟨.encrypt, "aes"⟩, ⟨.decrypt, "aes"⟩, ⟨.mask, "name"⟩]

/-- The type of the form, and that of the record nested in it twice. -/
def formFamily : Family 2
  | 0 => ⟨"Form", [⟨0, "name", .leaf .text formDirectives⟩, ⟨1, "more", .nested true 1⟩,
      ⟨2, "rest", .nested true 1⟩, ⟨3, "notes", .leaf .mapping formDirectives⟩]⟩
  | 1 => ⟨"Tags", [⟨0, "tags", .leaf .sequence formDirectives⟩]⟩

def formRoot : Fin 2 := 0

/-- The plans of the leaves for one of the directives. -/
def formPlans (parameter : Parameter) : List FieldPlan :=
  [⟨[0], [], "name", parameter, .text⟩, ⟨[1, 0], [0], "more.tags", parameter, .sequence⟩,
    ⟨[2, 0], [0], "rest.tags", parameter, .sequence⟩, ⟨[3], [], "notes", parameter, .mapping⟩]

def formPlanSet : PlanSet where
  typeName := "Form"
  entries := ((formPlans (.encryptor .aes)).zip (formPlans (.masker .name))).flatMap
    fun (keep, hide) => [(.encrypt, keep), (.decrypt, keep), (.mask, hide)]

/-- Masks a name with one star, and refuses the empty name. -/
def picky : Capabilities :=
  Capabilities.builtin.insertMasker .name
    ⟨fun value => if value = "" then .error (.other "empty") else .ok "*"⟩

end RecordPrivacy.Sample
