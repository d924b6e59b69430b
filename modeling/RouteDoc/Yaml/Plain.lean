import RouteDoc.Json.Reader
/-! The types that plain scalars have by their look. -/
namespace RouteDoc.Yaml

inductive NodeType where
  | null | bool | int | float | timestamp | text | binary
  | merge | default
  | sequence | mapping | set | orderedMapping | pairs
  | other (tag : String)
deriving DecidableEq, Repr

namespace Plain

def isDigit (c : Char) : Bool := '0' ≤ c && c ≤ '9'

def unsigned : List Char → List Char
  | '+' :: r | '-' :: r => r
  | s => s

def isNumberRun : List Char → Bool
  | c :: r => isDigit c && r.all fun c => isDigit c || c = '_'
  | [] => false

def isSexagesimal : List Char → Bool
  | [a] => isDigit a
  | [a, b] => '0' ≤ a && a ≤ '5' && isDigit b
  | _ => false

def isBool (s : String) : Bool :=
  s ∈ ["yes", "Yes", "YES", "no", "No", "NO", "true", "True", "TRUE", "false", "False", "FALSE",
    "on", "On", "ON", "off", "Off", "OFF"]

def isNull (s : String) : Bool := s ∈ ["", "~", "null", "Null", "NULL"]

def isExponent : List Char → Bool
  | c :: sign :: r =>
    (c = 'e' || c = 'E') && (sign = '+' || sign = '-') && !r.isEmpty && r.all isDigit
  | _ => false

def isOptionalExponent (s : List Char) : Bool := s.isEmpty || isExponent s

def isFraction (s : List Char) : Bool :=
  isOptionalExponent (s.dropWhile fun c => isDigit c || c = '_')

def isFloat (s : List Char) : Bool :=
  let whole := (unsigned s).takeWhile (· ≠ '.')
  let rest := ((unsigned s).dropWhile (· ≠ '.')).drop 1
  let hasPoint := (unsigned s).contains '.'
  let decimal := hasPoint && isNumberRun whole && isFraction rest
  let pointFirst := match s with
    | '.' :: c :: r => isDigit c && isFraction r
    | _ => false
  let parts := whole.splitOn ':'
  let sexagesimal := hasPoint && parts.length ≥ 2 && isNumberRun (parts.headD []) &&
    parts.tail.all isSexagesimal && rest.all fun c => isDigit c || c = '_'
  let infinite := String.ofList (unsigned s) ∈ [".inf", ".Inf", ".INF"]
  let undefined := String.ofList s ∈ [".nan", ".NaN", ".NAN"]
  decimal || pointFirst || sexagesimal || infinite || undefined

def isRun (p : Char → Bool) (s : List Char) : Bool := !s.isEmpty && s.all p

def isInt (s : List Char) : Bool :=
  match unsigned s with
  | '0' :: 'b' :: r => isRun (fun c => c = '0' || c = '1' || c = '_') r
  | '0' :: 'x' :: r => isRun (fun c => (Json.hexDigit? c).isSome || c = '_') r
  | '0' :: r => r.all fun c => ('0' ≤ c && c ≤ '7') || c = '_'
  | r =>
    let parts := r.splitOn ':'
    isNumberRun (parts.headD []) && parts.tail.all isSexagesimal

def shortNumber? : List Char → Option (Nat × List Char)
  | a :: b :: r =>
    if isDigit a && isDigit b then some (Json.value [a, b], r)
    else if isDigit a then some (Json.value [a], b :: r)
    else none
  | [a] => if isDigit a then some (Json.value [a], []) else none
  | [] => none

def twoDigits? : List Char → Option (Nat × List Char)
  | a :: b :: r => if isDigit a && isDigit b then some (Json.value [a, b], r) else none
  | _ => none

def fourDigits? : List Char → Option (Nat × List Char)
  | a :: b :: c :: d :: r =>
    if [a, b, c, d].all isDigit then some (Json.value [a, b, c, d], r) else none
  | _ => none

def afterChar? (c : Char) : List Char → Option (List Char)
  | d :: r => if c = d then some r else none
  | [] => none

structure Stamp where
  year : Nat
  month : Nat
  day : Nat
  /-- Hour, minute, second and the digits of the fraction. -/
  time : Option (Nat × Nat × Nat × List Char) := none
  offset : Option Int := none

def offset? (s : List Char) : Option (Option Int) :=
  match s.dropWhile fun c => c = ' ' || c = '\t' with
  | [] => if s.isEmpty then some none else none
  | ['Z'] => some (some 0)
  | sign :: r =>
    if sign = '+' ∨ sign = '-' then
      (shortNumber? r).bind fun (h, r) =>
        let minutes : Option Nat := match r with
          | [] => some 0
          | ':' :: r =>
            match twoDigits? r with
            | some (m, []) => some m
            | _ => none
          | _ => none
        minutes.map fun m =>
          let total : Int := h * 60 + m
          some (if sign = '-' then -total else total)
    else none

def time? (s : List Char) : Option (List Char) :=
  match s with
  | c :: r =>
    if c = 't' ∨ c = 'T' then some r
    else if c = ' ' ∨ c = '\t' then some (r.dropWhile fun c => c = ' ' || c = '\t')
    else none
  | [] => none

def stamp? (s : List Char) : Option Stamp := do
  let (year, r) ← fourDigits? s
  let r ← afterChar? '-' r
  let (month, r) ← shortNumber? r
  let r ← afterChar? '-' r
  let (day, r) ← shortNumber? r
  if r.isEmpty then return { year, month, day }
  let r ← time? r
  let (hour, r) ← shortNumber? r
  let r ← afterChar? ':' r
  let (minute, r) ← twoDigits? r
  let r ← afterChar? ':' r
  let (second, r) ← twoDigits? r
  let (fraction, r) := match r with
    | '.' :: r => (r.takeWhile isDigit, r.dropWhile isDigit)
    | r => ([], r)
  let offset ← offset? r
  return { year, month, day, time := some (hour, minute, second, fraction), offset }

def isTimestamp (s : List Char) : Bool :=
  match stamp? s with
  | some t => t.time.isSome || s.length == 10
  | none => false

def typeOf (text : String) : NodeType :=
  let s := text.toList
  if isBool text then .bool
  else if isFloat s then .float
  else if isInt s then .int
  else if text = "<<" then .merge
  else if isNull text then .null
  else if isTimestamp s then .timestamp
  else if text = "=" then .default
  else .text

end Plain
end RouteDoc.Yaml
