import RouteDoc.Batch
import RouteDoc.Catalogue.Reader
import RouteDoc.CommandLine.Request
import RouteDoc.Config.File
import RouteDoc.Descriptor.Data
import RouteDoc.Introspection
import RouteDoc.Json.Writer
import RouteDoc.Manifest
import RouteDoc.Yaml.Writer
/-! The command line as a function: from files, modules and arguments to what is printed, the files
afterwards and the way the run ends. Nothing is written before all routes are extracted. -/
namespace RouteDoc

def InspectionFailure.message? : InspectionFailure → Option String
  | .reported e => some e.message
  | _ => none

def ExtractionError.message? (word : Wording) : ExtractionError → Option String
  | .rule _ => none
  | .tag e => some e.message
  | .response e => e.message? word

def RouteError.message? (word : Wording) : RouteError InspectionFailure → Option String
  | .inspection e => e.message?
  | .extraction e => e.message? word

def Config.LoadError.message? (word : Wording) : Config.LoadError → Option String
  | .reported e => some (e.message word)
  | _ => none

def Manifest.LoadError.message? (word : Wording) : Manifest.LoadError → Option String
  | .reported e => some (e.message word)
  | _ => none

namespace CommandLine

/-- How deep a run lets values be nested: in texts of rules, in JSON that is read, and in what is
written. -/
structure Room where
  shown : Nat := Value.usualRoom
  read : Nat := Value.usualRoom
  written : Nat := 255

structure Environment where
  files : FileTree
  modules : List Path → Catalogue
  room : Room := {}

def Environment.ofFiles (files : FileTree) : Environment where
  files
  modules dirs := dirs.flatMap (Catalogue.inDirectory files)

inductive Failure where
  | config (e : Config.LoadError)
  | manifest (e : Manifest.LoadError)
  | route (e : RouteError InspectionFailure)
  | output (e : FileError)
  | unwritable

def Failure.message? (word : Wording) : Failure → Option String
  | .config e => e.message? word
  | .manifest e => e.message? word
  | .route e => e.message? word
  | .output _ | .unwritable => none

inductive Exit where
  | done
  | help
  | misuse
  | failed (e : Failure)

def Exit.code : Exit → Nat
  | .done | .help => 0
  | .failed _ => 1
  | .misuse => 2

structure Run where
  exit : Exit
  output : String := ""
  files : FileTree
  warnings : List Warning := []

def Format.writeData : Format → List Data → String
  | .json, ds => Json.write (.list ds)
  | .yaml, ds => Yaml.writeList ds

def Format.write? (room : Nat) (f : Format) (ds : List Descriptor) : Option String :=
  (ds.mapM (Descriptor.toData room)).map f.writeData

def Request.adjust (r : Request) (c : Config) : Config :=
  { c with workers := r.workers.getD c.workers, seed := r.seed.or c.seed }

def Request.load (r : Request) (files : FileTree) : Except Failure (Config × List Route) :=
  match Config.loadOptional files r.config with
  | .error e => .error (.config e)
  | .ok c =>
    match Manifest.load files r.manifest with
    | .error e => .error (.manifest e)
    | .ok routes => .ok (r.adjust c, routes)

def inspector (modules : Catalogue) : Inspector InspectionFailure := fun route =>
  (Introspection.inspect modules route.handler).map Introspection.entityOf

def Request.extract (r : Request) (env : Environment) (c : Config) (routes : List Route) :
    Outcome (RouteError InspectionFailure) (List Descriptor) :=
  let modules := env.modules (Introspection.addRoots env.files r.appDirs [])
  let x := Extractor.make c (Response.standard env.room.read env.files c.responseDir) env.room.shown
  (x.extractAll (inspector modules) c.workers routes).1

structure Unsaved where
  failure : Failure
  files : FileTree

/-- Writes a file, if there is a text, and makes the directories that it needs. They stay when the file
cannot be written. -/
def save (files : FileTree) (path : Path) (text? : Option String) : Except Unsaved FileTree :=
  match files.makeDirectories path.parent, text? with
  | .error i, _ => .error ⟨.output i.error, i.files⟩
  | .ok made, none => .error ⟨.unwritable, made⟩
  | .ok made, some text =>
    (made.writeBytes path (Text.encode text)).mapError fun e => ⟨.output e, made⟩

def Request.run (r : Request) (env : Environment) : Run :=
  match r.load env.files with
  | .error e => { exit := .failed e, files := env.files }
  | .ok (config, routes) =>
    let found := "Found " ++ toString routes.length ++ " routes in " ++ r.manifest.text ++ ".\n"
    let o := r.extract env config routes
    let run : Run := { exit := .done, output := found, files := env.files, warnings := o.warnings }
    match o.result with
    | .error e => { run with exit := .failed (.route e) }
    | .ok ds =>
      match save env.files r.output (r.format.write? env.room.written ds) with
      | .error u => { run with exit := .failed u.failure, files := u.files }
      | .ok files =>
        let saved := "Route documentation saved to " ++ r.output.text ++ "\n"
        { run with output := found ++ saved, files }

def usage : String :=
  "usage: routedoc [-v] extract MANIFEST -o OUTPUT [--config FILE] [--format json|yaml]\n" ++
  "                [--workers N] [--seed N] [--app-dir DIR]...\n"

def run (env : Environment) (args : List String) : Run :=
  match Command.ofArguments? env.files args with
  | none => { exit := .misuse, files := env.files }
  | some .help => { exit := .help, output := usage, files := env.files }
  | some (.extract r) => r.run env

end CommandLine
end RouteDoc
