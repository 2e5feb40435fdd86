import RecordPrivacy.Bytes

/-!
Randomness as an explicit supply: a sequence of bytes and the place up to which it is used. What is
drawn comes out of the supply in order and is never drawn again.
-/
namespace RecordPrivacy

structure Entropy where
  source : Nat → UInt8
  position : Nat

/-- A computation that may draw on the supply. -/
abbrev Drawn := StateM Entropy

/-- The next `count` bytes of the supply. -/
def Entropy.draw (count : Nat) : Drawn Bytes := fun supply =>
  ((List.range count).map fun i => supply.source (supply.position + i),
    ⟨supply.source, supply.position + count⟩)

@[simp] theorem Entropy.length_draw (count : Nat) (supply : Entropy) :
    (Entropy.draw count supply).1.length = count := by
  simp [Entropy.draw]

end RecordPrivacy
