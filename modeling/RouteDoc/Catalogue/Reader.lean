import RouteDoc.Catalogue
import RouteDoc.FileTree
import RouteDoc.Json.Reader
import RouteDoc.Text.Utf8
import RouteDoc.Value.Shown
/-! Catalogues in JSON. A file is a list of modules with name, doc and members; a member is a record
of its kind, which is `function`, `class`, `value` or anything else for a callable without a
signature. -/
namespace RouteDoc.Catalogue

def field (name : String) : Value → Value
  | .mapping es => (Assoc.get? (.text name) es).getD .null
  | _ => .null

def text? : Value → Option String
  | .text s => some s
  | _ => none

def textField (name : String) (v : Value) : Option String := text? (field name v)

def entries : Value → List (String × Value)
  | .mapping es => es.filterMap fun (k, v) => (text? k).map fun k => (k, v)
  | _ => []

def texts (v : Value) : List (String × String) :=
  (entries v).filterMap fun (k, v) => (text? v).map fun v => (k, v)

def items : Value → List Value
  | .list vs => vs
  | _ => []

def raised? (v : Value) : Option Raised :=
  match items (field "raises" v) with
  | [.text kind, .text text] => some (.ofKind kind text)
  | _ => none

def traits (v : Value) : Traits :=
  let annotations := texts (field "annotations" v)
  match field "mapping" v with
  | .mapping es => { annotations, mapping := .ok es }
  | m =>
    match raised? m with
    | some e => { annotations, mapping := .error e }
    | none => { annotations }

def meaning? (v : Value) : Option Meaning :=
  match raised? v, textField "path" v, textField "foreign" v with
  | some e, _, _ => some (.raises e)
  | _, some path, _ => some (.path path)
  | _, _, some name => some (.foreign name)
  | _, _, _ => none

mutual
def member : Nat → Value → Member
  | 0, _ => .builtin
  | depth + 1, v =>
    let doc := textField "doc" v
    match textField "kind" v with
    | some "function" =>
      let params := (entries (field "params" v)).map fun (name, type) => (name, text? type)
      let ending : Ending := match raised? v with
        | some e => .raises e
        | none => .returns (product depth (field "result" v))
      .function doc params ending
    | some "class" =>
      .classDef doc (textField "base" v) (traits v)
        ((entries (field "members" v)).map fun (name, m) => (name, member depth m))
    | some "value" => .data (product depth (field "value" v))
    | _ => .builtin

def product : Nat → Value → Product
  | 0, v => .value v
  | depth + 1, v =>
    match field "object" v with
    | .mapping ms =>
      .object ((textField "class" v).getD "object") (traits v)
        ((entries (.mapping ms)).map fun (name, m) => (name, member depth m))
    | _ => .value v
end

def moduleOf (depth : Nat) (v : Value) : Module where
  name := (textField "name" v).getD ""
  doc := textField "doc" v
  members := (entries (field "members" v)).map fun (name, m) => (name, member depth m)
  failure := raised? v
  expressions := (entries (field "expressions" v)).filterMap fun (text, m) =>
    (meaning? m).map fun m => (text, m)

def ofText (s : String) : Catalogue :=
  match Json.read Value.usualRoom s.toList with
  | .ok v => (items v).map (moduleOf s.length)
  | .error _ => []

/-- The modules that the file `catalogue.json` in a directory describes. -/
def inDirectory (files : FileTree) (dir : Path) : Catalogue :=
  match files.readBytes (dir.join (.ofText "catalogue.json")) with
  | .ok bytes => (Text.ofFile? bytes).elim [] ofText
  | .error _ => []

end RouteDoc.Catalogue
