/-!
Hiding the middle of a text: a number of characters at each end stays, every other one becomes a
star. A text that the two ends cover between them stays as it is.
-/
namespace RecordPrivacy.Mask

def star : Char := '*'

/-- The first `front` and the last `back` characters, and a star for each one between them. -/
def keep (front back : Nat) (text : List Char) : List Char :=
  if text.length ≤ front + back then text
  else
    let hidden := text.length - front - back
    text.take front ++ List.replicate hidden star ++ text.drop (front + hidden)

theorem length_keep (front back : Nat) (text : List Char) :
    (keep front back text).length = text.length := by
  unfold keep
  split
  · rfl
  · simp only [List.length_append, List.length_take, List.length_replicate, List.length_drop]
    omega

end RecordPrivacy.Mask
