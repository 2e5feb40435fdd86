import RecordPrivacy.Processor
import RecordPrivacy.Sample.Supply

/-!
Letters: one leaf that is both masked and redacted, one that is masked, and one that is redacted.
-/
namespace RecordPrivacy.Sample

def letter (sender reader : String) (stamp : Bytes) : Record :=
  [(0, .leaf (.text sender)), (1, .leaf (.sequence [reader])), (2, .leaf (.bytes stamp))]

def letterFamily : Family 1 := fun _ =>
  ⟨"Letter", [⟨0, "sender", .leaf .text [⟨.mask, "name"⟩, ⟨.redact, "-"⟩]⟩,
    ⟨1, "readers", .leaf .sequence [⟨.mask, "name"⟩]⟩,
    ⟨2, "stamp", .leaf .bytes [⟨.redact, "+"⟩]⟩]⟩

def letterPlanSet : PlanSet where
  typeName := "Letter"
  entries := [(.mask, ⟨[0], [], "sender", .masker .name, .text⟩),
    (.redact, ⟨[0], [], "sender", .literal "-", .text⟩),
    (.mask, ⟨[1], [], "readers", .masker .name, .sequence⟩),
    (.redact, ⟨[2], [], "stamp", .literal "+", .bytes⟩)]

def letterType : RecordType where
  size := 1
  family := letterFamily
  root := 0
  overrides := []
  runOverride _ _ record := return (record, none)
  empty := []
  toJson _ := .error "no layout"

def postOffice : Work where
  processor :=
    { type := letterType
      shared := ⟨0, letterPlanSet⟩
      capabilities := .builtin
      codec := none
      validation := none }
  entropy := supply
  history := []

/-- A post office with a way of its own to mask: it puts a star for the sender, and leaves the
readers alone. -/
def starredOffice : Work :=
  { postOffice with processor.type := { letterType with
      overrides := [.mask]
      runOverride := fun _ _ record => return (record.put 0 (.leaf (.text "*")), some (.ok ())) } }

end RecordPrivacy.Sample
