import RouteDoc.Number.Numeral
import RouteDoc.Text.Case
import RouteDoc.Value
import RouteDoc.Yaml.Plain
import RouteDoc.Yaml.Token
/-! The values of scalars by their types. -/
namespace RouteDoc.Yaml
open Text

def withoutUnderscores (s : List Char) : List Char := s.filter (· ≠ '_')

def sexagesimal (parts : List Int) : Int := parts.foldl (fun n p => n * 60 + p) 0

def orNotANumber {α : Type} (o : Option α) : Except ReadError α := o.elim (.error .notANumber) .ok

/-- The magnitude of an integer: binary, hexadecimal, octal with a zero in front, sexagesimal or
decimal. -/
def magnitude : List Char → Except ReadError Int
  | [] => .error .emptyNumber
  | ['0'] => .ok 0
  | '0' :: 'b' :: r => orNotANumber (Numeral.integerOfBase? 2 r)
  | '0' :: 'x' :: r => orNotANumber (Numeral.integerOfBase? 16 r)
  | '0' :: r => orNotANumber (Numeral.integerOfBase? 8 ('0' :: r))
  | s =>
    if s.contains ':' then
      orNotANumber (((s.splitOn ':').mapM Numeral.integer?).map sexagesimal)
    else orNotANumber (Numeral.integer? s)

def intValue (text : String) : Except ReadError Int :=
  match withoutUnderscores text.toList with
  | [] => .error .emptyNumber
  | '-' :: r => (magnitude r).map (- ·)
  | '+' :: r => magnitude r
  | s => magnitude s

/-- The sum of parts, the last one counted once, the one before sixty times, and so on. -/
def sexagesimalFloat (place : Nat) : List Binary64 → Binary64 → Binary64
  | [], sum => sum
  | p :: ps, sum => sexagesimalFloat (place * 60) ps (sum.add (p.mul (.ofInt place)))

def floatMagnitude (s : List Char) : Except ReadError Binary64 :=
  if s = ".inf".toList then .ok (.infinite false)
  else if s = ".nan".toList then .ok .nan
  else if s.contains ':' then
    orNotANumber (((s.splitOn ':').mapM Numeral.float?).map fun ps =>
      sexagesimalFloat 1 ps.reverse (.zero false))
  else orNotANumber (Numeral.float? s)

def floatValue (text : String) : Except ReadError Binary64 :=
  match withoutUnderscores (lower text).toList with
  | [] => .error .emptyNumber
  | '-' :: r => (floatMagnitude r).map Binary64.neg
  | '+' :: r => floatMagnitude r
  | s => floatMagnitude s

def boolValue (text : String) : Except ReadError Bool :=
  let word := lower text
  if word ∈ ["yes", "true", "on"] then .ok true
  else if word ∈ ["no", "false", "off"] then .ok false
  else .error .notABoolean

def isLeapYear (y : Nat) : Bool := y % 4 == 0 && (y % 100 != 0 || y % 400 == 0)

def daysIn (year month : Nat) : Nat :=
  if month = 2 then if isLeapYear year then 29 else 28
  else if month ∈ [4, 6, 9, 11] then 30
  else 31

def isDate (s : Plain.Stamp) : Bool :=
  1 ≤ s.year && 1 ≤ s.month && s.month ≤ 12 && 1 ≤ s.day && s.day ≤ daysIn s.year s.month

def microseconds (ds : List Char) : Nat :=
  Json.value (ds.take 6 ++ List.replicate (6 - ds.length) '0')

def isOffset (offset : Option Int) : Bool :=
  match offset with
  | none => true
  | some m => decide (m.natAbs < 24 * 60)

def momentValue (text : String) : Except ReadError Moment :=
  match Plain.stamp? text.toList with
  | none => .error .notATimestamp
  | some s =>
    if !isDate s then .error .impossibleDate
    else
      match s.time with
      | none => .ok ⟨s.year, s.month, s.day, none⟩
      | some (hour, minute, second, fraction) =>
        if hour < 24 ∧ minute < 60 ∧ second < 60 ∧ isOffset s.offset then
          .ok ⟨s.year, s.month, s.day,
            some ⟨hour, minute, second, microseconds fraction, s.offset⟩⟩
        else .error .impossibleDate

def base64Digit? (c : Char) : Option Nat :=
  if 'A' ≤ c && c ≤ 'Z' then some (c.toNat - 'A'.toNat)
  else if 'a' ≤ c && c ≤ 'z' then some (c.toNat - 'a'.toNat + 26)
  else if '0' ≤ c && c ≤ '9' then some (c.toNat - '0'.toNat + 52)
  else if c = '+' then some 62
  else if c = '/' then some 63
  else none

/-- The bytes that groups of four digits write. Characters that are no digits are passed over;
`place` counts the digits of the group, `left` holds the bits that make no byte yet, and `pads` the
equals signs. -/
def base64 (place left pads : Nat) : List Char → Option (List UInt8)
  | [] => if place = 0 then some [] else none
  | c :: r =>
    if c = '=' then
      if place ≥ 2 then
        if place + pads + 1 ≥ 4 then some [] else base64 place left (pads + 1) r
      else base64 place left pads r
    else
      match base64Digit? c with
      | none => base64 place left pads r
      | some d =>
        match place with
        | 0 => base64 1 d 0 r
        | 1 => (base64 2 (d % 16) 0 r).map (UInt8.ofNat (left * 4 + d / 16) :: ·)
        | 2 => (base64 3 (d % 4) 0 r).map (UInt8.ofNat (left * 16 + d / 4) :: ·)
        | _ => (base64 0 0 0 r).map (UInt8.ofNat (left * 64 + d) :: ·)

def bytesValue (text : String) : Except ReadError (List UInt8) :=
  if text.toList.all fun c => c.toNat < 128 then
    (base64 0 0 0 text.toList).elim (.error .malformed) .ok
  else .error .malformed

def scalarValue (type : NodeType) (text : String) : Except ReadError Value :=
  match type with
  | .null => .ok .null
  | .text => .ok (.text text)
  | .bool => (boolValue text).map .bool
  | .int => (intValue text).map .int
  | .float => (floatValue text).map .float
  | .binary => (bytesValue text).map .bytes
  | .timestamp => (momentValue text).map .moment
  | _ => .error .malformed

end RouteDoc.Yaml
