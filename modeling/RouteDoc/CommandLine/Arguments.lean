/-! Arguments of a command: options with one or two hyphens, and operands. An option's value stands
behind an equals sign after a long name, directly after a short one, or in the next argument. -/
namespace RouteDoc.CommandLine

structure Switch (κ : Type) where
  key : κ
  long : String
  short? : Option Char := none
  takesValue : Bool := true

structure Arguments (κ : Type) where
  options : List (κ × String) := []
  operands : List String := []

namespace Arguments
variable {κ : Type}

def withOptions (found : List (κ × String)) (a : Arguments κ) : Arguments κ :=
  { a with options := found ++ a.options }

def withOperand (s : String) (a : Arguments κ) : Arguments κ :=
  { a with operands := s :: a.operands }

def values [BEq κ] (k : κ) (a : Arguments κ) : List String :=
  (a.options.filter (·.1 == k)).map (·.2)

def last? [BEq κ] (k : κ) (a : Arguments κ) : Option String := (a.values k).getLast?

abbrev Given (κ : Type) := List (κ × String) × Option κ

def readShort (switches : List (Switch κ)) : List Char → Option (Given κ)
  | [] => some ([], none)
  | c :: r =>
    match switches.find? (·.short? == some c) with
    | none => none
    | some o =>
      if !o.takesValue then
        (readShort switches r).map fun (found, next) => ((o.key, "") :: found, next)
      else if r.isEmpty then some ([], some o.key)
      else some ([(o.key, String.ofList r)], none)

def readLong (o : Switch κ) (value : Option (List Char)) : Option (Given κ) :=
  match o.takesValue, value with
  | true, some v => some ([(o.key, String.ofList v)], none)
  | true, none => some ([], some o.key)
  | false, none => some ([(o.key, "")], none)
  | false, some _ => none

def readOption (switches : List (Switch κ)) (a : List Char) : Option (Given κ) :=
  let name := String.ofList (a.takeWhile (· ≠ '='))
  let value := if a.contains '=' then some ((a.dropWhile (· ≠ '=')).drop 1) else none
  match switches.find? (·.long == name) with
  | some o => readLong o value
  | none => if "--".toList.isPrefixOf a then none else readShort switches (a.drop 1)

def isOption (a : String) : Bool := a.toList.head? == some '-' && a.length > 1

/-- Reads arguments. Two hyphens end the options; where operands may not stand between options, the
first one ends them too. -/
def read (switches : List (Switch κ)) (between : Bool) (waiting : Option κ) :
    List String → Option (Arguments κ)
  | [] => if waiting.isSome then none else some {}
  | a :: r =>
    match waiting with
    | some k => (read switches between none r).map (withOptions [(k, a)])
    | none =>
      if a = "--" then some { operands := r }
      else if isOption a then
        match readOption switches a.toList with
        | none => none
        | some (found, next) => (read switches between next r).map (withOptions found)
      else if between then (read switches between none r).map (withOperand a)
      else some { operands := a :: r }

end Arguments
end RouteDoc.CommandLine
