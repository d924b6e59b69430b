import RouteDoc.Number.Numeral
import RouteDoc.Parameter
import RouteDoc.Text.Blank
import RouteDoc.Text.Case
/-! Inline examples read as values of their parameter's type. A text that does not read as the type
stays as it is. -/
namespace RouteDoc.ParamType
open Text

def readBoolean? (s : String) : Option Bool :=
  let word := lower (trimmed s)
  if word ∈ ["false", "0", "no", "off"] then some false
  else if word ∈ ["true", "1", "yes", "on"] then some true
  else none

def cast (s : String) : ParamType → Value
  | .integer => ((Numeral.integer? s.toList).map .int).getD (.text s)
  | .numeric | .float => ((Numeral.float? s.toList).map .float).getD (.text s)
  | .boolean => ((readBoolean? s).map .bool).getD (.text s)
  | .string | .array | .json | .image => .text s

def castNamed (s type : String) : Value :=
  match ofName? type with
  | some t => cast s t
  | none => .text s

end RouteDoc.ParamType
