import RouteDoc.Cause
import RouteDoc.Config
import RouteDoc.Yaml.File
/-! Configuration files. -/
namespace RouteDoc

inductive ConfigError where
  | unreadable (path : Path) (cause : Cause)
  | notMapping (path : Path)
  | invalid (path : Path) (violations : List Violation)
deriving DecidableEq, Repr

namespace ConfigError

def cause? : ConfigError → Option Cause
  | .unreadable _ c => some c
  | .notMapping _ => none
  | .invalid _ vs => some (.invalid vs)

def message (word : Wording) : ConfigError → String
  | .unreadable path c => "Cannot read config " ++ path.text ++ ": " ++ word c
  | .notMapping path => path.text ++ ": expected a mapping at the top level"
  | .invalid path vs => path.text ++ ": " ++ word (.invalid vs)

end ConfigError

namespace Config

inductive LoadError where
  | reported (e : ConfigError)
  | scalar (e : Yaml.ReadError)
  | zeroCharacter
  | keyNotText
deriving DecidableEq, Repr

/-- A response directory counts from the directory of the file that names it. -/
def placeIn (dir : Path) (c : Config) : Config :=
  { c with responseDir := c.responseDir.map dir.join }

def ofDocument (path : Path) (document : Value) : Except LoadError Config :=
  match if document.holds then document else .mapping [] with
  | .mapping es =>
    match Schema.textKeyed? es with
    | none => .error .keyNotText
    | some fields =>
      match ofFields fields with
      | .error vs => .error (.reported (.invalid path vs))
      | .ok c => .ok (c.placeIn path.parent)
  | _ => .error (.reported (.notMapping path))

def load (files : FileTree) (path : Path) : Except LoadError Config :=
  match Yaml.readFile files path with
  | .ok document => ofDocument path document
  | .error (.file .zeroCharacter) => .error .zeroCharacter
  | .error (.file e) => .error (.reported (.unreadable path (.file e)))
  | .error .notUtf8 => .error (.reported (.unreadable path .notUtf8))
  | .error (.document .malformed) => .error (.reported (.unreadable path .notYaml))
  | .error (.document e) => .error (.scalar e)

def loadOptional (files : FileTree) : Option Path → Except LoadError Config
  | none => .ok {}
  | some path => load files path

end Config
end RouteDoc
