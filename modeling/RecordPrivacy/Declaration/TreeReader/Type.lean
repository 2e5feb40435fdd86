import RecordPrivacy.Declaration.TreeReader.Bound
import RecordPrivacy.Declaration.TreeReader.Expression

/-!
Reading types, and with them all that is nested in each other: the readers of types, of bounds and
of expressions are closed up by the depth of nesting, which the number of trees bounds.
-/
namespace RecordPrivacy.Declaration

namespace TreeReader

section
variable (nested : Nested)

/-! ### Parentheses -/

/-- The bound that a type in parentheses stands for when others are added to it: the type has to be
a path or a single bound. -/
def boundOfParenthesized? : TypeExpr → Option Bound
  | .path false front name arguments =>
    some (.trait true (TypeExpr.path false front name arguments).trees)
  | .sum [.trait _ trees] false => some (.trait true trees)
  | _ => none

/-- The types in parentheses, and whether there is a comma behind the last. -/
def typesInside : TreeReader (List TypeExpr × Bool) := do
  let first ← nested.type true
  if ← sign? ',' then
    let (rest, trailing) ← itemsToEnd (nested.type true)
    return (first :: rest, trailing)
  else return ([first], false)

/-- A type in parentheses, several of them, or the first of a sum of bounds. -/
def parenthesizedType (plus : Bool) (inside : List Tree) : TreeReader TypeExpr := do
  if inside.isEmpty then return .other [.group .parenthesis []]
  else if Tree.startsLifetime inside then
    return .parenthesized (← within (traitSum nested true) inside)
  else if Tree.startsWith '?' inside then
    sumBehind nested (.trait true (← within (traitTrees nested) inside))
  else
    match ← within (typesInside nested) inside with
    | ([inner], false) =>
      match boundOfParenthesized? inner with
      | some first =>
        if plus && (← look (Tree.startsWith '+')) then sumBehind nested first
        else return .parenthesized inner
      | none => return .parenthesized inner
    | (types, trailing) =>
      return .other [.group .parenthesis (separated ',' trailing (types.map TypeExpr.trees))]

/-! ### Function types -/

/-- Whether a name comes next that a colon follows. -/
def startsNamed (isName : String → Bool) : List Tree → Bool
  | .word text :: rest => isName text && Tree.startsColon rest
  | _ => false

def isParameterName (text : String) : Bool :=
  isIdentifier text || text == "_"

def startsMutableSelf (trees : List Tree) : Bool :=
  Tree.startsWord "mut" trees && Tree.startsWord "self" (trees.drop 1)

/-- A parameter of a function type, perhaps with a name. Only the first can stand for the value
itself, and it is kept as it stands if that value can change. -/
def functionParameter (isFirst : Bool) : TreeReader (List Tree) := do
  if isFirst && (← look startsMutableSelf) then
    taken do
      skip 2
      if ← look Tree.startsColon then
        sign ':'
        let _ ← nested.type true
  else if ← look (startsNamed isParameterName) then
    if isFirst && (← look fun trees => startsMutableSelf (trees.drop 2)) then taken (skip 4)
    else
      let name ← anyWord
      sign ':'
      return .word name :: Tree.lone ':' :: (← nested.type true).trees
  else if isFirst && (← look (startsNamed (· == "self"))) then
    skip 2
    return .word "self" :: Tree.lone ':' :: (← nested.type true).trees
  else return (← nested.type true).trees

def dots : List Char := ['.', '.', '.']

/-- Whether the sign for further arguments comes next, perhaps behind a name. -/
def startsVariadic (trees : List Tree) : Bool :=
  Tree.startsWithJoined dots trees ||
    (startsNamed isParameterName trees && Tree.startsWithJoined dots (trees.drop 2))

/-- The sign for further arguments, with the name and the comma that it may have. -/
def variadic : TreeReader (List Tree) := do
  let name ←
    if ← look (Tree.startsWithJoined dots) then pure []
    else
      let name ← anyWord
      sign ':'
      pure [.word name, Tree.lone ':']
  joinedSign dots
  let comma := if ← sign? ',' then [Tree.lone ','] else []
  return name ++ Tree.joinedSign dots ++ comma

/-- The parameters of a function type, each with its attributes; nothing follows further
arguments. -/
def functionParameters : (fuel : Nat) → (isFirst : Bool) → TreeReader (List Tree)
  | 0, _ => refuse
  | fuel + 1, isFirst => do
    if (← ahead).isEmpty then return []
    else
      let own := (← attributes nested).flatMap (·.2)
      if ← look startsVariadic then return own ++ (← variadic)
      else
        let first ← functionParameter nested isFirst
        if (← ahead).isEmpty then return own ++ first
        else
          sign ','
          return own ++ first ++ Tree.lone ',' :: (← functionParameters fuel false)

/-- The convention behind `extern`, if one is named. -/
def convention : TreeReader (List Tree) := do
  match ← ahead with
  | .literal spelling (some text) :: rest =>
    goOn rest
    return [.literal spelling (some text)]
  | _ => return []

/-- A function type behind its binder. -/
def functionType (front : List Tree) : TreeReader TypeExpr := do
  let safety := if ← word? "unsafe" then [Tree.word "unsafe"] else []
  let calling ← do
    if ← word? "extern" then pure (.word "extern" :: (← convention)) else pure []
  word "fn"
  let inside ← group .parenthesis
  let parameters ← within (functionParameters nested (inside.length + 1) true) inside
  return .other (front ++ safety ++ calling ++ .word "fn" :: .group .parenthesis parameters ::
    (← result nested))

/-! ### Other types -/

/-- A type that starts with a path: the path, a macro's call, or a sum of bounds. -/
def pathType (plus : Bool) (binder : Option (List Tree)) : TreeReader TypeExpr := do
  let segments ← path nested false
  if segments.qualified then return segments.type
  else
    match ← macroCall? segments with
    | some trees => return .other trees
    | none =>
      if binder.isSome || (plus && (← look (Tree.startsWith '+'))) then
        sumFrom nested (.trait false (binder.getD [] ++ segments.trees)) plus
      else return segments.type

/-- A slice, or an array with its length. -/
def bracketType (inside : List Tree) : TreeReader TypeExpr := do
  let read : TreeReader (List Tree) := do
    let item ← nested.type true
    if ← sign? ';' then return item.trees ++ Tree.lone ';' :: (← nested.expression)
    else return item.trees
  return .other [.group .bracket (← within read inside)]

def referenceType : TreeReader TypeExpr := do
  let scope ← do
    if ← look Tree.startsLifetime then pure [Tree.lifetime (← lifetime)] else pure []
  let mutability := if ← word? "mut" then [Tree.word "mut"] else []
  return .other (Tree.lone '&' :: (scope ++ mutability ++ (← nested.type false).trees))

def pointerType : TreeReader TypeExpr := do
  let mutability ← anyWord
  if mutability = "const" ∨ mutability = "mut" then
    return .other (Tree.lone '*' :: .word mutability :: (← nested.type false).trees)
  else refuse

/-- Bounds behind `dyn`; behind a star as well they are kept as they stand. -/
def dynamicType (plus : Bool) : TreeReader TypeExpr := do
  if ← look fun trees => Tree.startsWith '*' (trees.drop 1) then
    let trees ← taken do
      skip 2
      let _ ← traitSum nested plus
    return .other trees
  else
    word "dyn"
    return .other (.word "dyn" :: (← traitSum nested plus).trees)

def startsFunction (trees : List Tree) : Bool :=
  ["fn", "unsafe", "extern"].any (Tree.startsWord · trees)

/-- A type that starts with a word. -/
def wordType (plus : Bool) (text : String) : TreeReader TypeExpr := do
  match text with
  | "_" =>
    skip 1
    return .other [.word "_"]
  | "dyn" => dynamicType nested plus
  | "impl" =>
    skip 1
    return .other (.word "impl" :: (← traitSum nested plus).trees)
  | "for" =>
    let binder ← binder? nested
    if ← look startsFunction then functionType nested (binder.getD [])
    else if ← look startsPathWord then pathType nested plus binder
    else refuse
  | _ =>
    if ← look startsFunction then functionType nested []
    else if isPathWord text then pathType nested plus none
    else refuse

/-- A type, given the readers of what is nested in it. Behind a lifetime there is always a sum. -/
def typeStep (plus : Bool) : TreeReader TypeExpr := do
  match ← ahead with
  | .group .parenthesis inside :: rest =>
    goOn rest
    parenthesizedType nested plus inside
  | .group .bracket inside :: rest =>
    goOn rest
    bracketType nested inside
  | .word text :: _ => wordType nested plus text
  | .lifetime _ :: _ => traitSum nested true
  | .sign '*' _ :: rest =>
    goOn rest
    pointerType nested
  | .sign '&' _ :: rest =>
    goOn rest
    referenceType nested
  | .sign '!' _ :: rest =>
    goOn rest
    return .other [Tree.lone '!']
  | trees =>
    if Tree.startsPath trees || Tree.startsWith '<' trees then pathType nested plus none
    else refuse

end

/-! ### Any depth -/

/-- The readers of what is nested no deeper than `depth`. -/
def Nested.upTo : (depth : Nat) → Nested
  | 0 => ⟨fun _ => refuse, refuse, refuse⟩
  | depth + 1 =>
    let nested := upTo depth
    ⟨typeStep nested, boundStep nested, expressionStep nested⟩

/-- The readers of what is nested in the trees to come: between one and the next below it a tree at
least is taken, or a type becomes a bound. -/
def nestedAhead : TreeReader Nested :=
  return .upTo (2 * Tree.countAll (← ahead) + 2)

end TreeReader

end RecordPrivacy.Declaration
