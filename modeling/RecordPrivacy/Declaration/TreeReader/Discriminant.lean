import RecordPrivacy.Declaration.TreeReader.Type

/-!
Passing over the value of an enumeration's alternative. An expression that can be read is taken as
such. Any other is scanned: a state tells what may come next, and each state has its rules in order,
of which the first that applies takes its trees and leads on. The scan ends at a comma or where
nothing is left, unless a branch is open.
-/
namespace RecordPrivacy.Declaration

namespace TreeReader

/-- Where in an expression the scan is. -/
inductive ScanState where
  | start
  | postfixed
  | attribute
  | label
  | conversion
  | asynchronous
  | block
  | breakLabel
  | breakValue
  | closure
  | closureArguments
  | closureResult
  | closureType
  | constant
  | continuing
  | access
  | loop
  | branchEnd
  | branchElse
  | method
  | path
  | pattern
  | range
  | raw
  | reference
  | returning
  deriving DecidableEq, Repr

/-- What a rule asks for, and takes. -/
inductive ScanTest where
  | keyword (text : String)
  | sign (text : String)
  | anything
  | operator
  | block
  | openBlock
  | anyGroup
  | identifier
  | lifetime
  | literal
  | path
  | markedArguments
  | type
  | expressionAhead
  | otherwise
  | ended
  deriving DecidableEq, Repr

/-- Where a rule leads. -/
inductive ScanStep where
  | go (next : ScanState)
  | openBranch
  | closeBranch
  | finish
  deriving DecidableEq, Repr

/-- The rules of a state, in order. -/
def ScanState.rules : ScanState → List (ScanTest × ScanStep)
  | .start =>
    [(.anyGroup, .go .postfixed), (.keyword "async", .go .asynchronous),
      (.keyword "break", .go .breakLabel), (.keyword "const", .go .constant),
      (.keyword "continue", .go .continuing), (.keyword "for", .go .loop),
      (.keyword "if", .openBranch), (.keyword "let", .go .pattern), (.keyword "loop", .go .block),
      (.keyword "match", .openBranch), (.keyword "move", .go .closure),
      (.keyword "return", .go .returning), (.keyword "static", .go .closure),
      (.keyword "try", .go .block), (.keyword "unsafe", .go .block),
      (.keyword "while", .openBranch), (.keyword "yield", .go .returning),
      (.keyword "_", .go .postfixed), (.sign "!", .go .start), (.sign "#", .go .attribute),
      (.sign "&", .go .reference), (.sign "*", .go .start), (.sign "-", .go .start),
      (.sign "..=", .go .start), (.sign "..", .go .range), (.sign "|", .go .closureArguments),
      (.lifetime, .go .label), (.literal, .go .postfixed), (.path, .go .path)]
  | .postfixed =>
    [(.keyword "as", .go .conversion), (.sign "..=", .go .start), (.sign "..", .go .range),
      (.sign ".", .go .access), (.sign "?", .go .postfixed), (.operator, .go .start),
      (.sign "=", .go .start), (.openBlock, .go .branchEnd), (.anyGroup, .go .postfixed),
      (.ended, .finish)]
  | .attribute => [(.anyGroup, .go .start)]
  | .label => [(.sign ":", .go .start)]
  | .conversion => [(.type, .go .postfixed)]
  | .asynchronous =>
    [(.keyword "move", .go .asynchronous), (.sign "|", .go .closureArguments),
      (.block, .go .postfixed)]
  | .block => [(.block, .go .postfixed)]
  | .breakLabel => [(.lifetime, .go .breakValue), (.otherwise, .go .breakValue)]
  | .breakValue =>
    [(.openBlock, .go .branchEnd), (.expressionAhead, .go .start), (.otherwise, .go .postfixed)]
  | .closure =>
    [(.keyword "async", .go .closure), (.keyword "move", .go .closure), (.sign ",", .go .closure),
      (.sign ">", .go .closure), (.sign "|", .go .closureArguments), (.lifetime, .go .closure),
      (.identifier, .go .closure)]
  | .closureArguments => [(.sign "|", .go .closureResult), (.anything, .go .closureArguments)]
  | .closureResult => [(.sign "->", .go .closureType), (.otherwise, .go .start)]
  | .closureType => [(.type, .go .block)]
  | .constant =>
    [(.sign "|", .go .closureArguments), (.keyword "move", .go .closure), (.block, .go .postfixed)]
  | .continuing => [(.lifetime, .go .postfixed), (.otherwise, .go .postfixed)]
  | .access =>
    [(.keyword "await", .go .postfixed), (.identifier, .go .method), (.literal, .go .postfixed)]
  | .loop => [(.sign "<", .go .closure), (.otherwise, .go .pattern)]
  | .branchEnd => [(.keyword "else", .go .branchElse), (.otherwise, .closeBranch)]
  | .branchElse => [(.keyword "if", .go .start), (.block, .closeBranch)]
  | .method => [(.markedArguments, .go .postfixed)]
  | .path =>
    [(.sign "!=", .go .start), (.sign "!", .go .start), (.openBlock, .go .branchEnd),
      (.otherwise, .go .postfixed)]
  | .pattern =>
    [(.anyGroup, .go .pattern), (.keyword "box", .go .pattern), (.keyword "in", .openBranch),
      (.keyword "mut", .go .pattern), (.keyword "ref", .go .pattern), (.keyword "_", .go .pattern),
      (.sign "!", .go .pattern), (.sign "&", .go .pattern), (.sign "..=", .go .pattern),
      (.sign "..", .go .pattern), (.sign "=", .go .start), (.sign "@", .go .pattern),
      (.sign "|", .go .pattern), (.literal, .go .pattern), (.path, .go .pattern)]
  | .range =>
    [(.sign "..=", .go .start), (.sign "..", .go .range), (.sign ".", .go .access),
      (.openBlock, .go .branchEnd), (.ended, .finish), (.otherwise, .go .start)]
  | .raw => [(.keyword "const", .go .start), (.keyword "mut", .go .start),
      (.otherwise, .go .postfixed)]
  | .reference =>
    [(.keyword "mut", .go .start), (.keyword "raw", .go .raw), (.otherwise, .go .start)]
  | .returning => [(.expressionAhead, .go .start), (.otherwise, .go .postfixed)]

/-- Whether an expression of any kind may come next. -/
def startsExpression (trees : List Tree) : Bool :=
  match trees with
  | .word text :: _ => text != "as"
  | .group _ _ :: _ => true
  | .literal _ _ :: _ => true
  | .lifetime _ :: _ => true
  | _ =>
    let before (char : Char) (not : List String) : Bool :=
      Tree.startsWith char trees && !not.any fun text => Tree.startsWithJoined text.toList trees
    before '!' ["!="] || before '-' ["-=", "->"] || before '*' ["*="] || before '|' ["|="] ||
      before '&' ["&="] || before '<' ["<=", "<<="] || before '#' [] ||
      Tree.startsWithJoined ['.', '.'] trees || Tree.startsPath trees

section
variable (nested : Nested)

/-- Takes trees if the test holds of what comes next. A block that opens a branch's body counts only
while a branch is open. -/
def applies (test : ScanTest) (isOpen : Bool) : TreeReader Bool := do
  let takeIf (holds : List Tree → Bool) (count : Nat) : TreeReader Bool := do
    if ← look holds then
      skip count
      return true
    else return false
  match test with
  | .keyword text => word? text
  | .sign text => joinedSign? text.toList
  | .anything => takeIf (!·.isEmpty) 1
  | .operator =>
    match operator? (← ahead) with
    | some (chars, _) => joinedSign? chars
    | none => return false
  | .block => takeIf Tree.startsBrace 1
  | .openBlock => if isOpen then takeIf Tree.startsBrace 1 else return false
  | .anyGroup =>
    takeIf (fun trees => match trees with | .group _ _ :: _ => true | _ => false) 1
  | .identifier =>
    takeIf (fun trees => match trees with | .word text :: _ => isIdentifier text | _ => false) 1
  | .lifetime => takeIf Tree.startsLifetime 1
  | .literal =>
    if ← look startsValue then
      let _ ← value
      return true
    else return false
  | .path =>
    let _ ← path nested true
    return true
  | .markedArguments =>
    if ← look Tree.startsPath then
      pathSign
      let _ ← angledArguments nested true
    return true
  | .type =>
    let _ ← nested.type false
    return true
  | .expressionAhead => look startsExpression
  | .otherwise => return true
  | .ended => look fun trees => trees.isEmpty || Tree.startsWith ',' trees

/-- The step of the first rule that applies. -/
def firstStep (isOpen : Bool) : List (ScanTest × ScanStep) → TreeReader ScanStep
  | [] => refuse
  | (test, step) :: rest => do
    if ← applies nested test isOpen then return step else firstStep isOpen rest

/-- Scans from a state, with so many branches open. -/
def scanTo : (fuel : Nat) → ScanState → (branches : Nat) → TreeReader Unit
  | 0, _, _ => refuse
  | fuel + 1, state, branches => do
    match ← firstStep nested (0 < branches) state.rules with
    | .go next => scanTo fuel next branches
    | .openBranch => scanTo fuel .start (branches + 1)
    | .closeBranch => scanTo fuel .postfixed (branches - 1)
    | .finish => if branches = 0 then return () else refuse

end

/-- Passes over an expression of any kind; no more than three steps in a row take nothing. -/
def scan : TreeReader Unit := do
  let trees ← ahead
  scanTo (← nestedAhead) (4 * trees.length + 4) .start 0

/-- Passes over the value of an alternative. -/
def discriminant : TreeReader Unit := do
  let readable : TreeReader Unit := do
    let nested ← nestedAhead
    let _ ← nested.expression
  readable <|> scan

end TreeReader

end RecordPrivacy.Declaration
