/-!
Network addresses. Four parts between dots count as an IPv4 address, of which the first two stay.
Otherwise a text with a colon is taken for an IPv6 address: a `::` in it stands for as many zero
groups as are missing from eight, and the first four of the eight groups stay.
-/
namespace RecordPrivacy.Mask

/-- The text before and after the first `::`. -/
def splitGap : List Char → Option (List Char × List Char)
  | [] => none
  | [_] => none
  | a :: b :: rest =>
    if a = ':' ∧ b = ':' then some ([], rest)
    else (splitGap (b :: rest)).map fun (left, right) => (a :: left, right)

/-- The groups on one side of a `::`; an empty side has none. -/
def sideGroups (side : List Char) : List (List Char) :=
  if side.isEmpty then [] else side.splitOn ':'

/-- The groups of an IPv6 address with the gap, if there is one, filled up to eight. -/
def expandGroups (text : List Char) : Option (List (List Char)) :=
  match splitGap text with
  | none => some (text.splitOn ':')
  | some (left, right) =>
    if (splitGap right).isSome then none
    else
      let before := sideGroups left
      let after := sideGroups right
      let present := before.length + after.length
      if 8 < present then none
      else some (before ++ List.replicate (8 - present) "0000".toList ++ after)

def hiddenGroups : List Char := ":xxxx:xxxx:xxxx:xxxx".toList

def ipv6 (text : List Char) : Except String (List Char) :=
  match expandGroups text with
  | some [a, b, c, d, _, _, _, _] =>
    .ok (a ++ ':' :: b ++ ':' :: c ++ ':' :: d ++ hiddenGroups)
  | _ => .error "invalid IPv6 address"

def ip (text : List Char) : Except String (List Char) :=
  match text.splitOn '.' with
  | [a, b, _, _] => .ok (a ++ '.' :: b ++ ".xxx.xxx".toList)
  | _ => if ':' ∈ text then ipv6 text else .error "not an IPv4 or IPv6 address"

end RecordPrivacy.Mask
