/-!
Items in parts: the text of a declaration put together from the texts of its attributes, its name,
its parameters and its fields. The parts are taken as they are, so that a part with a fault makes a
text with a fault.
-/
namespace RecordPrivacy.Declaration

structure FieldDraft where
  attributes : List String
  name : String
  type : String

inductive DraftStyle where
  | named
  | tuple
  | unit
  | enumeration
  | union
  deriving DecidableEq, Repr

structure Draft where
  style : DraftStyle
  attributes : List String
  name : String
  generics : String
  /-- The predicates on the parameters, with the word in front. -/
  condition : String
  fields : List FieldDraft

def attributesText (attributes : List String) : String :=
  String.join (attributes.map (· ++ " "))

/-- The field as it stands in an item of the style. -/
def FieldDraft.text (field : FieldDraft) (style : DraftStyle) : String :=
  let own :=
    match style with
    | .tuple => field.type
    | .enumeration => field.name
    | _ => field.name ++ ": " ++ field.type
  attributesText field.attributes ++ own

namespace Draft

def keyword : DraftStyle → String
  | .enumeration => "enum"
  | .union => "union"
  | _ => "struct"

def text (draft : Draft) : String :=
  let front := attributesText draft.attributes ++ keyword draft.style ++ " " ++ draft.name ++ " " ++
    draft.generics
  let fields := ", ".intercalate (draft.fields.map fun field => field.text draft.style)
  match draft.style with
  | .tuple => front ++ "(" ++ fields ++ ") " ++ draft.condition ++ ";"
  | .unit => front ++ " " ++ draft.condition ++ ";"
  | _ => front ++ " " ++ draft.condition ++ " \x7b " ++ fields ++ " \x7d"

end Draft

end RecordPrivacy.Declaration
