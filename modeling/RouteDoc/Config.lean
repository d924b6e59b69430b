import RouteDoc.Path
import RouteDoc.Schema
/-! The configuration of an extraction. -/
namespace RouteDoc

structure Config where
  headers : List (String × String) := []
  defaultGroup : String := "general"
  responseDir : Option Path := none
  workers : Int := 1
  seed : Option Int := none
deriving DecidableEq, Repr

namespace Config
open Schema

def path (location : List String) : Value → Checked Path
  | .text s => .ok (.ofText s)
  | _ => fail location .notPath

def atLeastOne (location : List String) (v : Value) : Checked Int :=
  match integer location v with
  | .ok n => if n < 1 then fail location .tooSmall else .ok n
  | .error e => .error e

def ofFields (fields : List (String × Value)) : Checked Config :=
  let headers := field "headers" [] textMapping fields
  let group := field "default_group" "general" text fields
  let dir := field "response_file_dir" none (fun l => optional (path l)) fields
  let workers := field "workers" 1 atLeastOne fields
  let seed := field "seed" none (fun l => optional (integer l)) fields
  match both headers (both group (both dir (both workers seed))) with
  | .ok (headers, group, dir, workers, seed) => .ok ⟨headers, group, dir, workers, seed⟩
  | .error e => .error e

def toValue (c : Config) : Value :=
  .mapping [
    (.text "headers", .mapping (c.headers.map fun (k, v) => (.text k, .text v))),
    (.text "default_group", .text c.defaultGroup),
    (.text "response_file_dir", (c.responseDir.map (.text ·.text)).getD .null),
    (.text "workers", .int c.workers),
    (.text "seed", (c.seed.map .int).getD .null)]

end Config
end RouteDoc
