import RouteDoc.FileTree
import RouteDoc.Text.Utf8
import RouteDoc.Yaml.Document
/-! YAML files. -/
namespace RouteDoc.Yaml

inductive FileReadError where
  | file (e : FileError)
  | notUtf8
  | document (e : ReadError)
deriving DecidableEq, Repr

def readFile (files : FileTree) (path : Path) : Except FileReadError Value :=
  match files.readBytes path with
  | .error e => .error (.file e)
  | .ok bytes =>
    match Text.ofFile? bytes with
    | none => .error .notUtf8
    | some text => (read text).mapError .document

end RouteDoc.Yaml
