import RecordPrivacy.Declaration.Guard
import RecordPrivacy.Declaration.TreeReader.Path

/-!
Reading attributes: a path in brackets behind a number sign, and behind the path nothing, a list in
some delimiters, or an expression that it is set to. Every attribute is read to what it says and to
the trees by which it is written out again.
-/
namespace RecordPrivacy.Declaration

namespace TreeReader

def moduleSegment : TreeReader String := do
  let word ← anyWord
  if isPathWord word then return word else refuse

/-- The segments behind the first, each behind its path sign. -/
def moduleSegments : (fuel : Nat) → TreeReader (List Tree)
  | 0 => return []
  | fuel + 1 => do
    if ← pathSign? then
      let segment ← moduleSegment
      return Tree.pathSign ++ .word segment :: (← moduleSegments fuel)
    else return []

/-- A path without arguments: its name, if it is a single word, and its trees. -/
def modulePath : TreeReader (Option String × List Tree) := do
  let root := if ← pathSign? then Tree.pathSign else []
  let first ← moduleSegment
  let rest ← moduleSegments ((← ahead).length + 1)
  let name := if root.isEmpty && rest.isEmpty then some first else none
  return (name, root ++ .word first :: rest)

/-- The path that an attribute starts with. -/
def attributePath : TreeReader (Option String × List Tree) := do
  if ← word? "unsafe" then return (some "unsafe", [.word "unsafe"]) else modulePath

section
variable (nested : Nested)

def attributeInside : TreeReader (Attribute × List Tree) := do
  let (name, front) ← attributePath
  match ← ahead with
  | .group delimiter inside :: rest =>
    goOn rest
    return (⟨name, .list inside⟩, front ++ [.group delimiter inside])
  | .sign '=' _ :: rest =>
    goOn rest
    return (⟨name, .value⟩, front ++ Tree.lone '=' :: (← nested.expression))
  | _ => return (⟨name, .bare⟩, front)

/-- The attributes that come next, each with its trees. -/
def attributesTo : (fuel : Nat) → TreeReader (List (Attribute × List Tree))
  | 0 => return []
  | fuel + 1 => do
    if ← sign? '#' then
      let (first, trees) ← within (attributeInside nested) (← group .bracket)
      let rest ← attributesTo fuel
      return (first, [Tree.lone '#', .group .bracket trees]) :: rest
    else return []

def attributes : TreeReader (List (Attribute × List Tree)) := do
  attributesTo nested ((← ahead).length + 1)

end

end TreeReader

end RecordPrivacy.Declaration
