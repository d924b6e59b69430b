import RouteDoc.Text.Blank
/-! The inline example of a description. A marker is `Example:` at the start of the text or after a
blank; the last marker splits the text. -/
namespace RouteDoc.Description
open Text

def marker : List Char := "Example:".toList

/-- The text before the last marker and the text after it. `fresh` tells that the text starts where
a marker may stand. -/
def splitAtMarker (fresh : Bool) : List Char → Option (List Char × List Char)
  | [] => none
  | c :: r =>
    match splitAtMarker (isBlank c) r with
    | some (before, after) => some (c :: before, after)
    | none =>
      if fresh && marker.isPrefixOf (c :: r) then some ([], (c :: r).drop marker.length) else none

/-- The description proper and its example. A marker with nothing behind it gives no example. -/
def split (s : List Char) : List Char × Option (List Char) :=
  match splitAtMarker true s with
  | none => (s, none)
  | some (before, after) =>
    (trim before, if (trim after).isEmpty then none else some (trim after))

end RouteDoc.Description
