import RecordPrivacy.Entropy

/-!
A supply of bytes for trying things out: the same from one time to the next, with no pattern to the
eye.
-/
namespace RecordPrivacy.Sample

/-- Scatters the bits of a number, by multiplying and folding the upper bits down. -/
def scatter (n : UInt64) : UInt64 :=
  let a := (n + 0x9E3779B97F4A7C15) * 0xBF58476D1CE4E5B9
  let b := (a ^^^ (a >>> 30)) * 0x94D049BB133111EB
  let c := (b ^^^ (b >>> 27)) * 0xBF58476D1CE4E5B9
  c ^^^ (c >>> 31)

def supply : Entropy :=
  ⟨fun i => (scatter (UInt64.ofNat i)).toUInt8, 0⟩

end RecordPrivacy.Sample
