import RouteDoc.Cause
import RouteDoc.Route.Record
import RouteDoc.Yaml.File
/-! Manifests: YAML files that list routes. -/
namespace RouteDoc

inductive ManifestError where
  | notYaml (path : Path)
  | noRoutes (path : Path)
  | invalidRoute (path : Path) (index : Nat) (cause : Cause)
deriving DecidableEq, Repr

namespace ManifestError

def cause? : ManifestError → Option Cause
  | .notYaml _ => some .notYaml
  | .noRoutes _ => none
  | .invalidRoute _ _ c => some c

def message (word : Wording) : ManifestError → String
  | .notYaml path => path.text ++ ": " ++ word .notYaml
  | .noRoutes path => path.text ++ ": expected a top-level 'routes' list"
  | .invalidRoute path i c =>
    path.text ++ ": route #" ++ toString i ++ " is invalid: " ++ word c

end ManifestError

namespace Manifest

inductive LoadError where
  | reported (e : ManifestError)
  | file (e : FileError)
  | notUtf8
  | scalar (e : Yaml.ReadError)
deriving DecidableEq, Repr

def route : Value → Except Cause Route
  | .mapping es =>
    match Schema.textKeyed? es with
    | none => .error .notFields
    | some fields => (Route.ofFields fields).mapError .invalid
  | _ => .error .notFields

def routes (path : Path) (index : Nat) : List Value → Except ManifestError (List Route)
  | [] => .ok []
  | v :: vs =>
    match route v with
    | .error c => .error (.invalidRoute path index c)
    | .ok r => (routes path (index + 1) vs).map (r :: ·)

def items? : Value → Option (List Value)
  | .mapping es =>
    match Assoc.get? (.text "routes") es with
    | some (.list vs) => some vs
    | _ => none
  | _ => none

def ofDocument (path : Path) (document : Value) : Except ManifestError (List Route) :=
  match items? document with
  | none => .error (.noRoutes path)
  | some vs => routes path 0 vs

def load (files : FileTree) (path : Path) : Except LoadError (List Route) :=
  match Yaml.readFile files path with
  | .ok document => (ofDocument path document).mapError .reported
  | .error (.file e) => .error (.file e)
  | .error .notUtf8 => .error .notUtf8
  | .error (.document .malformed) => .error (.reported (.notYaml path))
  | .error (.document e) => .error (.scalar e)

end Manifest
end RouteDoc
