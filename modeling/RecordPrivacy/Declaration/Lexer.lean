import RecordPrivacy.Bytes
import RecordPrivacy.Declaration.Token
import RecordPrivacy.Text.Blank
import RecordPrivacy.Text.Identifier
import RecordPrivacy.Text.Quoted

/-!
From text to trees. Every step takes some characters and leaves the rest; the steps' lexemes are
then nested by their delimiters. Comments are blanks, except those that document: they are
attributes. Text that cannot be split, and delimiters that do not match, are refused.
-/
namespace RecordPrivacy.Declaration

inductive Lexeme where
  | leaf (tree : Tree)
  | opening (delimiter : Delimiter)
  | closing (delimiter : Delimiter)

namespace Lexer

/-- The characters taken when `rest` is left of `input`. -/
def taken (input rest : List Char) : String :=
  String.ofList (input.take (input.length - rest.length))

/-- What is left behind the text that the input starts with. -/
def after? (front : List Char) (input : List Char) : Option (List Char) :=
  if front.isPrefixOf input then some (input.drop front.length) else none

/-! ### Blanks and comments -/

/-- Direction marks count as blanks. -/
def isBlank (c : Char) : Bool :=
  Text.isBlank c || c == '\u200e' || c == '\u200f'

/-- The content of a block comment whose start is taken, and what follows; block comments nest. -/
def blockComment : (depth : Nat) → List Char → Option (List Char × List Char)
  | depth, '/' :: '*' :: rest =>
    (blockComment (depth + 1) rest).map fun (inside, left) => ('/' :: '*' :: inside, left)
  | 0, '*' :: '/' :: rest => some ([], rest)
  | depth + 1, '*' :: '/' :: rest =>
    (blockComment depth rest).map fun (inside, left) => ('*' :: '/' :: inside, left)
  | depth, c :: rest => (blockComment depth rest).map fun (inside, left) => (c :: inside, left)
  | _, [] => none

def lineComment (input : List Char) : List Char × List Char :=
  (input.takeWhile (· ≠ '\n'), input.dropWhile (· ≠ '\n'))

/-- A carriage return stands only before a line feed. -/
def hasLoneReturn : List Char → Bool
  | '\r' :: '\n' :: rest => hasLoneReturn rest
  | '\r' :: _ => true
  | _ :: rest => hasLoneReturn rest
  | [] => false

/-- A line's content, without the carriage return that belongs to its end. -/
def dropReturn (content : List Char) (left : List Char) : List Char :=
  if content.getLast? = some '\r' ∧ left ≠ [] then content.dropLast else content

/-- The characters of a documenting comment as they stand between quotes. What a message escapes is
escaped, but for a nul before an octal digit, which is written by its number. -/
def documentCharacters : List Char → List Char
  | [] => []
  | '\x00' :: rest =>
    let beforeDigit := rest.head?.any fun c => '0' ≤ c && c ≤ '7'
    (if beforeDigit then "\\x00" else "\\0").toList ++ documentCharacters rest
  | c :: rest => Text.escaped c ++ documentCharacters rest

/-- The attribute that a documenting comment stands for. -/
def document (inner : Bool) (content : List Char) : Option (List Lexeme) :=
  if hasLoneReturn content then none
  else
    let spelling := String.ofList ('"' :: documentCharacters content ++ ['"'])
    let marks := if inner then [Tree.lone '#', Tree.lone '!'] else [Tree.lone '#']
    some (marks.map .leaf ++ [.opening .bracket, .leaf (.word "doc"), .leaf (Tree.lone '='),
      .leaf (.literal spelling (some (String.ofList content))), .closing .bracket])

def documentLine (inner : Bool) (rest : List Char) : Option (List Lexeme × List Char) :=
  let (content, left) := lineComment rest
  (document inner (dropReturn content left)).map fun lexemes => (lexemes, left)

def documentBlock (inner : Bool) (rest : List Char) : Option (List Lexeme × List Char) := do
  let (content, left) ← blockComment 0 rest
  let lexemes ← document inner content
  return (lexemes, left)

/-- The lexemes of the comment that the input starts with. -/
def comment (input : List Char) : Option (List Lexeme × List Char) :=
  match input with
  | '/' :: '/' :: '/' :: '/' :: rest => some ([], (lineComment rest).2)
  | '/' :: '/' :: '/' :: rest => documentLine false rest
  | '/' :: '/' :: '!' :: rest => documentLine true rest
  | '/' :: '/' :: rest => some ([], (lineComment rest).2)
  | '/' :: '*' :: '*' :: '/' :: rest => some ([], rest)
  | '/' :: '*' :: '*' :: '*' :: rest =>
    (blockComment 0 ('*' :: '*' :: rest)).map fun (_, left) => ([], left)
  | '/' :: '*' :: '*' :: rest => documentBlock false rest
  | '/' :: '*' :: '!' :: rest => documentBlock true rest
  | '/' :: '*' :: rest => (blockComment 0 rest).map fun (_, left) => ([], left)
  | _ => none

/-! ### Words -/

def word? (input : List Char) : Option (List Char × List Char) :=
  match input with
  | c :: rest =>
    if Text.isIdentifierStart c then
      some (c :: rest.takeWhile Text.isIdentifierContinue,
        rest.dropWhile Text.isIdentifierContinue)
    else none
  | [] => none

/-- A word, perhaps one that is marked as no keyword. -/
def markedWord? (input : List Char) : Option (String × List Char) :=
  match after? ['r', '#'] input with
  | none => (word? input).map fun (word, rest) => (String.ofList word, rest)
  | some unmarked => do
    let (word, rest) ← word? unmarked
    let text := String.ofList word
    if ["_", "super", "self", "Self", "crate"].contains text then none
    else return ("r#" ++ text, rest)

/-- Passes over the word that may follow a literal directly. -/
def suffix (input : List Char) : List Char :=
  match word? input with
  | some (_, rest) => rest
  | none => input

/-! ### Text in quotes -/

inductive Quotation where
  | text
  | bytes
  | terminated
  deriving DecidableEq

def hexValue? (c : Char) : Option Nat := Bytes.hexValue? c

/-- The digits of a code point between braces, the opening one taken. -/
def codePoint : (count value : Nat) → List Char → Option (Nat × List Char)
  | count, value, '\x7d' :: rest => if count = 0 then none else some (value, rest)
  | count, value, '_' :: rest => if count = 0 then none else codePoint count value rest
  | count, value, c :: rest =>
    match hexValue? c with
    | some digit => if count = 6 then none else codePoint (count + 1) (16 * value + digit) rest
    | none => none
  | _, _, [] => none

/-- The character that a code point between braces stands for. -/
def unicodeEscape (input : List Char) : Option (Char × List Char) :=
  match input with
  | '\x7b' :: rest =>
    match codePoint 0 0 rest with
    | some (value, left) => if value.isValidChar then some (Char.ofNat value, left) else none
    | none => none
  | _ => none

/-- The value of two hexadecimal digits, within what the quotation admits. -/
def byteEscape (kind : Quotation) (input : List Char) : Option (Nat × List Char) :=
  match input with
  | high :: low :: rest => do
    let value := 16 * (← hexValue? high) + (← hexValue? low)
    match kind with
    | .text => if value < 128 then some (value, rest) else none
    | .bytes => some (value, rest)
    | .terminated => if value = 0 then none else some (value, rest)
  | _ => none

/-- Passes over the blanks at the start of a line that continues a quotation. -/
def continuation : List Char → Option (List Char)
  | [] => none
  | '\r' :: '\n' :: rest => continuation rest
  | '\r' :: _ => none
  | c :: rest =>
    if c = ' ' ∨ c = '\t' ∨ c = '\n' then continuation rest else some (c :: rest)

/-- The characters that an escape stands for, its backslash taken. -/
def escape (kind : Quotation) (input : List Char) : Option (List Char × List Char) :=
  match input with
  | 'n' :: rest => some (['\n'], rest)
  | 'r' :: rest => some (['\r'], rest)
  | 't' :: rest => some (['\t'], rest)
  | '\\' :: rest => some (['\\'], rest)
  | '\'' :: rest => some (['\''], rest)
  | '"' :: rest => some (['"'], rest)
  | '0' :: rest => if kind = .terminated then none else some (['\x00'], rest)
  | 'x' :: rest => (byteEscape kind rest).map fun (value, left) => ([Char.ofNat value], left)
  | 'u' :: rest =>
    match unicodeEscape rest with
    | some (c, left) =>
      if kind = .bytes ∨ (kind = .terminated ∧ c = '\x00') then none else some ([c], left)
    | none => none
  | _ => none

/-- The next characters of a quotation: what they stand for, and what is left. -/
def quotedStep (kind : Quotation) (input : List Char) : Option (List Char × List Char) :=
  match input with
  | '\r' :: '\n' :: rest => some (['\n'], rest)
  | '\r' :: _ => none
  | '\\' :: '\n' :: rest => (continuation ('\n' :: rest)).map fun left => ([], left)
  | '\\' :: '\r' :: rest => (continuation ('\r' :: rest)).map fun left => ([], left)
  | '\\' :: rest => escape kind rest
  | c :: rest =>
    if (kind = .bytes ∧ 128 ≤ c.toNat) ∨ (kind = .terminated ∧ c = '\x00') then none
    else some ([c], rest)
  | [] => none

/-- The text up to the closing quote, and what follows it. -/
def quoted (kind : Quotation) (input : List Char) : Option (List Char × List Char) :=
  if input.head? = some '"' then some ([], input.drop 1)
  else
    match quotedStep kind input with
    | none => none
    | some (chars, rest) =>
      if rest.length < input.length then
        (quoted kind rest).map fun (text, left) => (chars ++ text, left)
      else none
termination_by input.length

/-- The text up to a quote with as many marks behind it as there were in front. -/
def rawText (kind : Quotation) (marks : List Char) : List Char → Option (List Char × List Char)
  | [] => none
  | '\r' :: '\n' :: rest =>
    (rawText kind marks rest).map fun (text, left) => ('\r' :: '\n' :: text, left)
  | '\r' :: _ => none
  | c :: rest =>
    if c = '"' ∧ marks.isPrefixOf rest then some ([], rest.drop marks.length)
    else if (kind = .bytes ∧ 128 ≤ c.toNat) ∨ (kind = .terminated ∧ c = '\x00') then none
    else (rawText kind marks rest).map fun (text, left) => (c :: text, left)

/-- A quotation without escapes, from its marks on. -/
def rawQuoted (kind : Quotation) (input : List Char) : Option (List Char × List Char) :=
  let marks := input.takeWhile (· = '#')
  match input.drop marks.length with
  | '"' :: rest => if 255 < marks.length then none else rawText kind marks rest
  | _ => none

/-- The text between quotes at the start of the input, in any of its spellings. -/
def quotation? (input : List Char) : Option (Quotation × List Char × List Char) :=
  match input with
  | '"' :: rest => (quoted .text rest).map fun found => (.text, found)
  | 'r' :: rest => (rawQuoted .text rest).map fun found => (.text, found)
  | 'b' :: '"' :: rest => (quoted .bytes rest).map fun found => (.bytes, found)
  | 'b' :: 'r' :: rest => (rawQuoted .bytes rest).map fun found => (.bytes, found)
  | 'c' :: '"' :: rest => (quoted .terminated rest).map fun found => (.terminated, found)
  | 'c' :: 'r' :: rest => (rawQuoted .terminated rest).map fun found => (.terminated, found)
  | _ => none

/-- What follows a character in single quotes, the opening one taken. -/
def character (kind : Quotation) (input : List Char) : Option (List Char) :=
  let body :=
    match input with
    | '\\' :: rest => (escape kind rest).map (·.2)
    | c :: rest => if kind = .bytes ∧ 128 ≤ c.toNat then none else some rest
    | [] => none
  match body with
  | some ('\'' :: rest) => some rest
  | _ => none

/-- What follows a character literal, of either kind. -/
def character? (input : List Char) : Option (List Char) :=
  match input with
  | 'b' :: '\'' :: rest => character .bytes rest
  | '\'' :: rest => character .text rest
  | _ => none

/-! ### Numbers -/

def isDigit (c : Char) : Bool := '0' ≤ c && c ≤ '9'

/-- Passes over the digits of a base. A decimal digit beyond the base is refused, another letter
ends the digits; the flag says whether there was a digit. -/
def baseDigits (base : Nat) : (found : Bool) → List Char → Option (List Char)
  | found, '_' :: rest => if !found && base == 10 then none else baseDigits base found rest
  | found, c :: rest =>
    match hexValue? c with
    | some value =>
      if value < base then baseDigits base true rest
      else if isDigit c ∨ !found then none
      else some (c :: rest)
    | none => if found then some (c :: rest) else none
  | found, [] => if found then some [] else none

/-- What follows a whole number. -/
def whole? (input : List Char) : Option (List Char) :=
  match input with
  | '0' :: 'x' :: rest => baseDigits 16 false rest
  | '0' :: 'o' :: rest => baseDigits 8 false rest
  | '0' :: 'b' :: rest => baseDigits 2 false rest
  | _ => baseDigits 10 false input

def isNumeral (c : Char) : Bool := isDigit c || c == '_'

/-- What follows the exponent of a number, its letter taken. -/
def exponent? (input : List Char) : Option (List Char) :=
  let lead := input.dropWhile (· = '_')
  let unsigned :=
    match lead with
    | '+' :: rest => rest
    | '-' :: rest => rest
    | _ => lead
  if (unsigned.takeWhile isNumeral).any isDigit then some (unsigned.dropWhile isNumeral) else none

/-- What follows a number with a point or an exponent; a point belongs to the number unless a word
or another point follows it. -/
def float? (input : List Char) : Option (List Char) :=
  match input with
  | d :: _ =>
    if !isDigit d then none
    else
      let exponentAt (rest : List Char) : Option (List Char) :=
        match rest with
        | 'e' :: left => exponent? left
        | 'E' :: left => exponent? left
        | _ => none
      match input.dropWhile isNumeral with
      | '.' :: rest =>
        match rest with
        | c :: _ =>
          if c = '.' ∨ Text.isIdentifierStart c then none
          else
            let left := rest.dropWhile isNumeral
            some ((exponentAt left).getD left)
        | [] => some []
      | rest => exponentAt rest
  | [] => none

/-- What follows a number with its suffix. -/
def number? (input : List Char) : Option (List Char) :=
  let ended (rest : List Char) : Option (List Char) :=
    let left := suffix rest
    match left with
    | c :: _ => if Text.isIdentifierContinue c then none else some left
    | [] => some left
  ((float? input).bind ended).or ((whole? input).bind ended)

/-! ### Lexemes -/

def literal? (input : List Char) : Option (Tree × List Char) :=
  match quotation? input with
  | some (kind, text, rest) =>
    let left := suffix rest
    let value := if kind = .text then some (String.ofList text) else none
    some (.literal (taken input left) value, left)
  | none =>
    match ((character? input).map suffix).or (number? input) with
    | some left => some (.literal (taken input left) none, left)
    | none => none

def signs : List Char := "~!@#$%^&*-=+|;:,<.>/?".toList

/-- Whether a sign comes next; the start of a comment is none. -/
def startsSign (input : List Char) : Bool :=
  match input with
  | '/' :: '/' :: _ => false
  | '/' :: '*' :: _ => false
  | c :: _ => signs.contains c || c == '\''
  | [] => false

/-- The starts of literals, which are never words. -/
def literalStarts : List (List Char) :=
  ["r\"", "r#\"", "r##", "b\"", "b'", "br\"", "br#", "c\"", "cr\"", "cr#"].map String.toList

def word (input : List Char) : Option (Tree × List Char) :=
  if literalStarts.any (·.isPrefixOf input) then none
  else (markedWord? input).map fun (word, left) => (.word word, left)

/-- A lifetime, its quote taken. Before a literal that starts like a word the quote stands alone. -/
def lifetime (input : List Char) : Option (Tree × List Char) := do
  let (name, rest) ← markedWord? input
  if rest.head? = some '\'' ∨ (rest.head? = some '#' ∧ ¬name.startsWith "r#") then none
  else if (literal? input).isSome then return (.sign '\'' true, input)
  else
    let _ ← word input
    return (.lifetime ("'" ++ name), rest)

/-- A literal, a sign, a lifetime or a word. -/
def leaf? (input : List Char) : Option (Tree × List Char) :=
  match literal? input with
  | some found => some found
  | none =>
    match input with
    | '\'' :: rest => lifetime rest
    | c :: rest => if startsSign input then some (.sign c (startsSign rest), rest) else word input
    | [] => none

/-- The literal that stands for what could not be read; it is spelled like a comment in
parentheses. -/
def faultLiteral : List Char := "(/*ERROR*/)".toList

def delimiter? : Char → Option Lexeme
  | '(' => some (.opening .parenthesis)
  | '[' => some (.opening .bracket)
  | '\x7b' => some (.opening .brace)
  | ')' => some (.closing .parenthesis)
  | ']' => some (.closing .bracket)
  | '\x7d' => some (.closing .brace)
  | _ => none

/-- The lexemes that the input starts with, none for a blank, and what is left. -/
def step (input : List Char) : Option (List Lexeme × List Char) :=
  match input with
  | [] => none
  | c :: rest =>
    if isBlank c then some ([], rest)
    else
      match comment input with
      | some found => some found
      | none =>
        match after? faultLiteral input with
        | some left => some ([.leaf (.literal (String.ofList faultLiteral) none)], left)
        | none =>
          match delimiter? c with
          | some lexeme => some ([lexeme], rest)
          | none => (leaf? input).map fun (tree, left) => ([.leaf tree], left)

/-- The lexemes of the whole input, in order. -/
def lexemes (input : List Char) : Option (List Lexeme) :=
  if input.isEmpty then some []
  else
    match step input with
    | none => none
    | some (found, rest) =>
      if rest.length < input.length then (lexemes rest).map (found ++ ·) else none
termination_by input.length

/-- Nests the lexemes. The trees of the current group are in reverse, and so are those of the groups
around it, from the inside out. -/
def nest : (around : List (Delimiter × List Tree)) → (current : List Tree) → List Lexeme →
    Option (List Tree)
  | [], current, [] => some current.reverse
  | _ :: _, _, [] => none
  | around, current, .leaf tree :: rest => nest around (tree :: current) rest
  | around, current, .opening delimiter :: rest => nest ((delimiter, current) :: around) [] rest
  | [], _, .closing _ :: _ => none
  | (opened, outer) :: around, current, .closing delimiter :: rest =>
    if opened = delimiter then nest around (.group delimiter current.reverse :: outer) rest
    else none

end Lexer

/-- The trees of a source text, if it can be split into them. A byte order mark in front of the text
is no part of it. -/
def Tree.ofText? (text : String) : Option (List Tree) :=
  let input :=
    match text.toList with
    | '\ufeff' :: rest => rest
    | all => all
  (Lexer.lexemes input).bind (Lexer.nest [] [])

end RecordPrivacy.Declaration
