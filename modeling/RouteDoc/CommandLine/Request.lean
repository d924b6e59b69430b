import RouteDoc.CommandLine.Arguments
import RouteDoc.FileTree
import RouteDoc.Number.Numeral
/-! What the command line asks for. -/
namespace RouteDoc.CommandLine

inductive Format where
  | json
  | yaml
deriving DecidableEq, Repr

namespace Format

def ofName? : String → Option Format
  | "json" => some .json
  | "yaml" => some .yaml
  | _ => none

end Format

structure Request where
  manifest : Path
  output : Path
  config : Option Path := none
  format : Format := .json
  workers : Option Int := none
  seed : Option Int := none
  appDirs : List Path := []
deriving DecidableEq

inductive Command where
  | help
  | extract (r : Request)
deriving DecidableEq

inductive ProgramSwitch where
  | verbose
  | help
deriving DecidableEq

inductive ExtractSwitch where
  | output
  | config
  | format
  | workers
  | seed
  | appDir
  | help
deriving DecidableEq

def programSwitches : List (Switch ProgramSwitch) := [
  { key := .verbose, long := "--verbose", short? := some 'v', takesValue := false },
  { key := .help, long := "--help", takesValue := false }]

def extractSwitches : List (Switch ExtractSwitch) := [
  { key := .output, long := "--output", short? := some 'o' },
  { key := .config, long := "--config" },
  { key := .format, long := "--format" },
  { key := .workers, long := "--workers" },
  { key := .seed, long := "--seed" },
  { key := .appDir, long := "--app-dir" },
  { key := .help, long := "--help", takesValue := false }]

def optional {α : Type} (read : String → Option α) : Option String → Option (Option α)
  | none => some none
  | some s => (read s).map some

def existing? (files : FileTree) (s : String) : Option Path :=
  (files.findTyped? s).map fun _ => .ofText s

def directory? (files : FileTree) (s : String) : Option Path :=
  match files.findTyped? s with
  | some .directory => some (.ofText s)
  | _ => none

def integer? (s : String) : Option Int := Numeral.integer? s.toList

def positive? (s : String) : Option Int := (integer? s).filter (1 ≤ ·)

namespace Request

def ofArguments? (files : FileTree) (a : Arguments ExtractSwitch) : Option Request := do
  let [manifest] := a.operands | none
  let manifest ← existing? files manifest
  let output ← a.last? .output
  let config ← optional (existing? files) (a.last? .config)
  let format ← optional Format.ofName? (a.last? .format)
  let workers ← optional positive? (a.last? .workers)
  let seed ← optional integer? (a.last? .seed)
  let appDirs ← (a.values .appDir).mapM (directory? files)
  return {
    manifest, output := .ofText output, config, format := format.getD .json
    workers, seed, appDirs }

end Request

namespace Command

def ofArguments? (files : FileTree) (args : List String) : Option Command := do
  let program ← Arguments.read programSwitches false none args
  if program.last? .help |>.isSome then return .help
  match program.operands with
  | "extract" :: args =>
    let a ← Arguments.read extractSwitches true none args
    if a.last? .help |>.isSome then return .help
    return .extract (← Request.ofArguments? files a)
  | _ => none

end Command
end RouteDoc.CommandLine
