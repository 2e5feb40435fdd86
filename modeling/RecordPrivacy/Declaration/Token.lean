/-!
Source text as trees of tokens. A group in delimiters is one tree; a sign is one character and may
be joined to the sign that follows it; a literal keeps its spelling, and one that holds text its
value too. `spellAll` puts the trees on one line, with single blanks between those that are not
joined.
-/
namespace RecordPrivacy.Declaration

inductive Delimiter where
  | parenthesis
  | bracket
  | brace
  deriving DecidableEq, Repr

inductive Tree where
  | word (text : String)
  | lifetime (name : String)
  | sign (char : Char) (joined : Bool)
  | literal (spelling : String) (text : Option String)
  | group (delimiter : Delimiter) (inside : List Tree)

namespace Tree

def isJoined : Tree → Bool
  | .sign _ joined => joined
  | _ => false

mutual

def spell : Tree → String
  | .word text => text
  | .lifetime name => name
  | .sign char _ => char.toString
  | .literal spelling _ => spelling
  | .group .parenthesis inside => "(" ++ spellAll inside ++ ")"
  | .group .bracket inside => "[" ++ spellAll inside ++ "]"
  | .group .brace inside => "\x7b" ++ spellAll inside ++ "\x7d"

def spellAll : List Tree → String
  | [] => ""
  | tree :: rest =>
    spell tree ++ (if rest.isEmpty || tree.isJoined then "" else " ") ++ spellAll rest

end

mutual

/-- The number of trees, those inside counted too. -/
def count : Tree → Nat
  | .group _ inside => countAll inside + 1
  | _ => 1

def countAll : List Tree → Nat
  | [] => 0
  | tree :: rest => count tree + countAll rest

end

/-- Whether the spelling of a literal is that of a number. -/
def isNumber (spelling : String) : Bool :=
  match spelling.toList with
  | c :: _ => '0' ≤ c && c ≤ '9'
  | [] => false

/-! ### Signs -/

def lone (char : Char) : Tree := .sign char false

/-- A sign of several characters. -/
def joinedSign : List Char → List Tree
  | [] => []
  | [char] => [lone char]
  | char :: rest => .sign char true :: joinedSign rest

/-- The two colons between the segments of a path. -/
def pathSign : List Tree := joinedSign [':', ':']

def arrow : List Tree := joinedSign ['-', '>']

def startsWith (char : Char) : List Tree → Bool
  | .sign c _ :: _ => c == char
  | _ => false

/-- Whether the trees start with the sign of several characters; one more may be joined to it. -/
def startsWithJoined : List Char → List Tree → Bool
  | [], _ => true
  | [char], trees => startsWith char trees
  | char :: rest, .sign c true :: trees => c == char && startsWithJoined rest trees
  | _, _ => false

def startsPath (trees : List Tree) : Bool :=
  startsWithJoined [':', ':'] trees

/-- Whether one colon comes next, and not two. -/
def startsColon (trees : List Tree) : Bool :=
  startsWith ':' trees && !startsPath trees

def startsParenthesis : List Tree → Bool
  | .group .parenthesis _ :: _ => true
  | _ => false

def startsBrace : List Tree → Bool
  | .group .brace _ :: _ => true
  | _ => false

def startsBracket : List Tree → Bool
  | .group .bracket _ :: _ => true
  | _ => false

def startsLiteral : List Tree → Bool
  | .literal _ _ :: _ => true
  | _ => false

def startsLifetime : List Tree → Bool
  | .lifetime _ :: _ => true
  | _ => false

def startsWord (text : String) : List Tree → Bool
  | .word t :: _ => t == text
  | _ => false

end Tree

/-! ### Words -/

/-- The words that name nothing. -/
def reservedWords : List String :=
  ["_", "abstract", "as", "async", "await", "become", "box", "break", "const", "continue", "crate",
    "do", "dyn", "else", "enum", "extern", "false", "final", "fn", "for", "if", "impl", "in", "let",
    "loop", "macro", "match", "mod", "move", "mut", "override", "priv", "pub", "ref", "return",
    "Self", "self", "static", "struct", "super", "trait", "true", "try", "type", "typeof", "unsafe",
    "unsized", "use", "virtual", "where", "while", "yield"]

def isIdentifier (word : String) : Bool :=
  !reservedWords.contains word

end RecordPrivacy.Declaration
