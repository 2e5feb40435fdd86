import RecordPrivacy.Mask.Keep
import RecordPrivacy.Text.Blank

/-!
Names and mail addresses. Of a name the first character of each word stays, and the words are set
one space apart; of a mail address the first character and everything from the last at sign on.
-/
namespace RecordPrivacy.Mask

/-- What stands before the last at sign, and what follows from it on. -/
def splitAddress (text : List Char) : Option (List Char × List Char) :=
  match text.reverse.span (· ≠ '@') with
  | (_, []) => none
  | (domain, at_ :: before) => some (before.reverse, at_ :: domain.reverse)

def email (text : List Char) : Except String (List Char) :=
  match splitAddress text with
  | some (first :: _, domain) => .ok (first :: "***".toList ++ domain)
  | _ => .error "missing or misplaced @"

def joinWords : List (List Char) → List Char
  | [] => []
  | [word] => word
  | word :: rest => word ++ ' ' :: joinWords rest

def name (text : List Char) : Except String (List Char) :=
  match Text.words text with
  | [] => .error "name cannot be empty"
  | words => .ok (joinWords (words.map (keep 1 0)))

end RecordPrivacy.Mask
