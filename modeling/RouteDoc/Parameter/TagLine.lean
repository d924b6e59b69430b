import RouteDoc.Comment
import RouteDoc.Parameter.Alias
import RouteDoc.Parameter.Cast
import RouteDoc.Parameter.Cursor
import RouteDoc.Parameter.Description
import RouteDoc.Text.Quoted
import RouteDoc.Warning
/-! Parameter tags: a name, a type, the word `required` when more text follows it or nothing else is
there, and a description that may end with an inline example. -/
namespace RouteDoc
open Text

structure TagError where
  tag : Tag
  uri : Option String
deriving DecidableEq, Repr

def TagError.message (e : TagError) : String :=
  let place := match e.uri with
    | some u => if u = "" then "" else " on route " ++ u
    | none => ""
  "Cannot parse @" ++ e.tag.name ++ " " ++ quoted e.tag.content ++ place ++
    ": expected '<name> <type> [required] [description]'"

namespace Tag

def requiredWord : List Char := "required".toList

def splitFlag (c : Cursor) : Bool × List Char :=
  if !c.hasMore then (false, [])
  else
    match c.peek with
    | (some word, true) =>
      if word = requiredWord then (true, trim c.next.2.rest.1) else (false, trim c.rest.1)
    | _ =>
      let description := trim c.rest.1
      if description = requiredWord then (true, []) else (false, description)

def fields? (content : List Char) : Option (List Char × List Char × Bool × List Char) :=
  match (Cursor.start (trim content)).next with
  | (some name, c) =>
    match c.next with
    | (some type, c) => some (name, type, splitFlag c)
    | _ => none
  | _ => none

def draft? (t : Tag) : Option Draft :=
  (fields? t.content.toList).map fun (name, type, required, description) =>
    let type := ParamType.ofDeclared (String.ofList type)
    let (text, inline) := Description.split description
    { name := String.ofList name
      type := type.name
      description := String.ofList text
      required := required
      sample := match inline with
        | some e => .given (type.cast (String.ofList e))
        | none => .wanted type }

end Tag

/-- Parameters read in order, each with its tag's name, up to a tag that cannot be read. -/
structure Reading where
  entries : List (String × Draft) := []
  error : Option TagError := none

namespace Reading

def ofTags (kind : Option ParamKind) (uri : Option String) : List Tag → Reading
  | [] => {}
  | t :: ts =>
    if ParamKind.ofTagName? t.name = kind then
      match t.draft? with
      | none => { error := some ⟨t, uri⟩ }
      | some d =>
        let r := ofTags kind uri ts
        { r with entries := (t.name, d) :: r.entries }
    else ofTags kind uri ts

def drafts (r : Reading) : List Draft := r.entries.map (·.2)

def repeated (uri : Option String) (seen : List String) : List (String × Draft) → List Warning
  | [] => []
  | (tagName, d) :: es =>
    if d.name ∈ seen then .duplicate tagName d.name uri :: repeated uri seen es
    else repeated uri (d.name :: seen) es

def warnings (r : Reading) (uri : Option String) : List Warning := repeated uri [] r.entries

end Reading
end RouteDoc
