import RouteDoc.Yaml.Plain
/-! The nodes of a document. Aliases are replaced by what they stand for, except inside it: there a
`back` node stands. -/
namespace RouteDoc.Yaml

inductive Node where
  | scalar (type : NodeType) (text : String)
  | sequence (type : NodeType) (items : List Node)
  | mapping (type : NodeType) (entries : List (Node × Node))
  | back (anchor : String)

namespace Node

def type : Node → NodeType
  | .scalar t _ => t
  | .sequence t _ => t
  | .mapping t _ => t
  | .back _ => .other ""

def empty : Node := .scalar .null ""

end Node

def standardTag : String := "tag:yaml.org,2002:"

def NodeType.ofTag (tag : String) : NodeType :=
  let names : List (String × NodeType) := [
    ("null", .null), ("bool", .bool), ("int", .int), ("float", .float), ("timestamp", .timestamp),
    ("str", .text), ("binary", .binary), ("merge", .merge), ("value", .default), ("seq", .sequence),
    ("map", .mapping), ("set", .set), ("omap", .orderedMapping), ("pairs", .pairs)]
  ((names.map fun (n, t) => (standardTag ++ n, t)).lookup tag).getD (.other tag)

end RouteDoc.Yaml
