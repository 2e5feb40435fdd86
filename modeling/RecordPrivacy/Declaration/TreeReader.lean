import RecordPrivacy.Declaration.Token

/-!
Readers of trees. A reader takes trees off the front or refuses. What stands in a group is read by
itself; trees that are left over in it do not stop the reading, but spoil it as a whole, so that
another way to read the same trees is tried only after a refusal.
-/
namespace RecordPrivacy.Declaration

/-- What is still to be read. -/
structure Reading where
  trees : List Tree
  /-- Whether every group that has been read was read to its end. -/
  isWhole : Bool

abbrev TreeReader := StateT Reading Option

namespace TreeReader

def refuse {α : Type} : TreeReader α := fun _ => none

/-- The trees that come next. -/
def ahead : TreeReader (List Tree) :=
  return (← get).trees

/-- Goes on with these trees. -/
def goOn (rest : List Tree) : TreeReader Unit :=
  modify fun reading => { reading with trees := rest }

def look (test : List Tree → Bool) : TreeReader Bool :=
  return test (← ahead)

/-- Passes over trees that have been looked at. -/
def skip (count : Nat) : TreeReader Unit :=
  modify fun reading => { reading with trees := reading.trees.drop count }

/-- The trees that the reader takes, as they stand. -/
def taken {α : Type} (reader : TreeReader α) : TreeReader (List Tree) := do
  let before ← ahead
  let _ ← reader
  return before.take (before.length - (← ahead).length)

/-! ### Leaves -/

/-- Takes a single sign. -/
def sign (char : Char) : TreeReader Unit := do
  if ← look (Tree.startsWith char) then skip 1 else refuse

/-- Takes a sign if it comes next. -/
def sign? (char : Char) : TreeReader Bool := do
  if ← look (Tree.startsWith char) then
    skip 1
    return true
  else return false

/-- Takes a sign of several characters. -/
def joinedSign (chars : List Char) : TreeReader Unit := do
  if ← look (Tree.startsWithJoined chars) then skip chars.length else refuse

/-- Takes a sign of several characters if it comes next. -/
def joinedSign? (chars : List Char) : TreeReader Bool := do
  if ← look (Tree.startsWithJoined chars) then
    skip chars.length
    return true
  else return false

def pathSign : TreeReader Unit := joinedSign [':', ':']

def pathSign? : TreeReader Bool := joinedSign? [':', ':']

/-- Takes any word, reserved or not. -/
def anyWord : TreeReader String := do
  match ← ahead with
  | .word text :: rest =>
    goOn rest
    return text
  | _ => refuse

/-- Takes a word if it comes next. -/
def word? (text : String) : TreeReader Bool := do
  if ← look (Tree.startsWord text) then
    skip 1
    return true
  else return false

def word (text : String) : TreeReader Unit := do
  unless ← word? text do refuse

def identifier : TreeReader String := do
  let text ← anyWord
  if isIdentifier text then return text else refuse

def lifetime : TreeReader String := do
  match ← ahead with
  | .lifetime name :: rest =>
    goOn rest
    return name
  | _ => refuse

/-! ### Groups -/

/-- Takes a group and gives what is inside. -/
def group (delimiter : Delimiter) : TreeReader (List Tree) := do
  match ← ahead with
  | .group d inside :: rest =>
    goOn rest
    if d = delimiter then return inside else refuse
  | _ => refuse

/-- Reads what is inside a group; what is left over there spoils the reading. -/
def within {α : Type} (reader : TreeReader α) (inside : List Tree) : TreeReader α :=
  fun reading =>
    (reader ⟨inside, reading.isWhole⟩).map fun (a, left) =>
      (a, ⟨reading.trees, left.isWhole && left.trees.isEmpty⟩)

/-- Refuses unless nothing is left. -/
def ended : TreeReader Unit := do
  unless (← ahead).isEmpty do refuse

/-! ### Sequences -/

/-- Items set apart by a sign, up to where `ended` holds; tells whether the sign follows the last.
Without the sign the items end as well. -/
def itemsTo {α : Type} (item : TreeReader α) (char : Char) (ended : List Tree → Bool) :
    (fuel : Nat) → TreeReader (List α × Bool)
  | 0 => refuse
  | fuel + 1 => do
    if ← look ended then return ([], true)
    else
      let first ← item
      if ← sign? char then
        let (rest, trailing) ← itemsTo item char ended fuel
        return (first :: rest, trailing)
      else return ([first], false)

def items {α : Type} (item : TreeReader α) (char : Char) (ended : List Tree → Bool) :
    TreeReader (List α × Bool) := do
  itemsTo item char ended ((← ahead).length + 1)

/-- All that is left, as items set apart by commas. -/
def itemsToEnd {α : Type} (item : TreeReader α) : TreeReader (List α × Bool) := do
  let read ← items item ',' List.isEmpty
  ended
  return read

end TreeReader

end RecordPrivacy.Declaration
