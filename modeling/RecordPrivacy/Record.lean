import RecordPrivacy.Bytes
import RecordPrivacy.Json.Value
import RecordPrivacy.Schema

/-!
Records as boundaries see them. A record maps declaration indices to contents. A leaf holds text in
one of four shapes; a nested record is walked into; an optional one may be absent; a hidden member
is out of reach. A path of indices leads through present records to a leaf or to nothing.
-/
namespace RecordPrivacy

/-- A key of a mapping; it names an element in messages and is never transformed. A key that is
neither a text nor a natural number is held as the text that stands for it in JSON, with the text by
which its type has it shown. -/
inductive Key where
  | text (value : String)
  | number (value : Nat)
  | other (written shown : String)
  deriving DecidableEq, Repr

/-- The key as diagnostics show it. -/
def Key.shown : Key → String
  | .text value => Text.quoted value
  | .number value => toString value
  | .other _ shown => shown

inductive Leaf where
  | text (value : String)
  | bytes (value : Bytes)
  | sequence (items : List String)
  | mapping (entries : List (Key × String))
  deriving DecidableEq, Repr

def Leaf.shape : Leaf → Shape
  | .text _ => .text
  | .bytes _ => .bytes
  | .sequence _ => .sequence
  | .mapping _ => .mapping

inductive Content where
  | leaf (value : Leaf)
  | record (fields : List (Nat × Content))
  | optional (fields : Option (List (Nat × Content)))
  | hidden (data : Json)

/-- Contents by declaration index; of two with one index the first counts. -/
abbrev Record := List (Nat × Content)

namespace Content

/-- The record to walk into, if there is one. -/
def inner? : Content → Option Record
  | .record fields => some fields
  | .optional fields => fields
  | _ => none

/-- The same content with another record inside. -/
def withInner (content : Content) (fields : Record) : Content :=
  match content with
  | .record _ => .record fields
  | .optional (some _) => .optional (some fields)
  | other => other

def leaf? : Content → Option Leaf
  | .leaf value => some value
  | _ => none

/-- What diagnostics say of the content; nothing of a hidden one. -/
def label? : Content → Option String
  | .leaf value => some value.shape.label
  | .record _ => some "Record"
  | .optional (some _) => some "Record"
  | .optional none => some "Absent"
  | .hidden _ => none

end Content

namespace Record

def content? (record : Record) (index : Nat) : Option Content :=
  record.lookup index

/-- Replaces the content at an index. -/
def put : Record → Nat → Content → Record
  | [], _, _ => []
  | (i, held) :: rest, index, content =>
    if i = index then (i, content) :: rest else (i, held) :: put rest index content

/-- The leaf at the end of a path; nothing if a record on the way is absent, or if the path leads
elsewhere. -/
def resolve? : Record → List Nat → Option Leaf
  | _, [] => none
  | record, [index] => (record.content? index).bind Content.leaf?
  | record, index :: next :: rest =>
    match (record.content? index).bind Content.inner? with
    | some inner => resolve? inner (next :: rest)
    | none => none

/-- Replaces the leaf at the end of a path that leads to one. -/
def replace : Record → List Nat → Leaf → Record
  | record, [], _ => record
  | record, [index], leaf =>
    match record.content? index with
    | some (.leaf _) => record.put index (.leaf leaf)
    | _ => record
  | record, index :: next :: rest, leaf =>
    match record.content? index with
    | some content =>
      match content.inner? with
      | some inner => record.put index (content.withInner (replace inner (next :: rest) leaf))
      | none => record
    | none => record

end Record

end RecordPrivacy
