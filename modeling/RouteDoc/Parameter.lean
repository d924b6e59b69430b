import RouteDoc.Value
/-! Documented parameters of a route and their types. -/
namespace RouteDoc

/-- The types that a parameter may have, in order of precedence among rule tokens. -/
inductive ParamType where
  | integer | numeric | float | boolean | string | array | json | image
deriving DecidableEq, Repr

namespace ParamType

def all : List ParamType :=
  [.integer, .numeric, .float, .boolean, .string, .array, .json, .image]

def name : ParamType → String
  | .integer => "integer"
  | .numeric => "numeric"
  | .float => "float"
  | .boolean => "boolean"
  | .string => "string"
  | .array => "array"
  | .json => "json"
  | .image => "image"

def ofName? (s : String) : Option ParamType := all.find? (·.name == s)

end ParamType

/-- A parameter with a sample of type `α`. The type is a text because rules show theirs whole. -/
structure Parameter (α : Type) where
  name : String
  type : String
  description : String := ""
  required : Bool := false
  sample : α
deriving DecidableEq, Repr

inductive Sample where
  | given (v : Value)
  | wanted (type : ParamType)

abbrev Draft := Parameter Sample

inductive ParamKind where
  | path | query | body
deriving DecidableEq, Repr

namespace ParamKind

def tagName : ParamKind → String
  | .path => "pathParam"
  | .query => "queryParam"
  | .body => "bodyParam"

def ofTagName? (name : String) : Option ParamKind :=
  [path, query, body].find? (·.tagName == name)

end ParamKind

end RouteDoc
