import RouteDoc.Parameter
import RouteDoc.Text.Blank
import RouteDoc.Text.Case
/-! Declared type names: short names stand for canonical types, letter case and blanks around do not
matter, and an unknown name is a string. -/
namespace RouteDoc.ParamType
open Text

def expandAlias (s : String) : String :=
  if s = "int" then "integer" else if s = "bool" then "boolean" else if s = "double" then "float"
  else s

def ofDeclared (s : String) : ParamType :=
  (ofName? (expandAlias (lower (trimmed s)))).getD .string

end RouteDoc.ParamType
