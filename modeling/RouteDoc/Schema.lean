import RouteDoc.Number.Numeral
import RouteDoc.Text.Utf8
import RouteDoc.Value.Shown
/-! Checking values against the fields of a record. Every field is checked, and what is wrong is
told with its location. -/
namespace RouteDoc

inductive Fault where
  | missing
  | notText
  | notUtf8
  | notList
  | notMapping
  | notRecord
  | notInteger
  | notIntegerText
  | hasFraction
  | notFinite
  | tooLarge
  | tooSmall
  | notPath
  | invalid (message : String)
deriving DecidableEq, Repr

structure Violation where
  location : List String
  fault : Fault
deriving DecidableEq, Repr

abbrev Checked (α : Type) := Except (List Violation) α

namespace Schema
open Text

def fail {α : Type} (location : List String) (f : Fault) : Checked α := .error [⟨location, f⟩]

def both {α β : Type} (a : Checked α) (b : Checked β) : Checked (α × β) :=
  match a, b with
  | .ok x, .ok y => .ok (x, y)
  | .error e, .ok _ => .error e
  | .ok _, .error e => .error e
  | .error e, .error f => .error (e ++ f)

def all {α β : Type} (check : Nat → α → Checked β) (index : Nat) : List α → Checked (List β)
  | [] => .ok []
  | x :: xs =>
    match both (check index x) (all check (index + 1) xs) with
    | .ok (y, ys) => .ok (y :: ys)
    | .error e => .error e

def ofBytes (bs : List UInt8) : Option String := decode? bs

def text (location : List String) : Value → Checked String
  | .text s => .ok s
  | .bytes bs => (ofBytes bs).elim (fail location .notUtf8) .ok
  | _ => fail location .notText

def textList (location : List String) : Value → Checked (List String)
  | .list xs | .tuple xs | .set xs =>
    all (fun i x => text (location ++ [toString i]) x) 0 xs
  | _ => fail location .notList

def keyName : Value → String
  | .text s => s
  | .bool b => if b then "1" else "0"
  | v =>
    match v.shownInside Value.usualRoom with
    | .ok s => s
    | .error _ => "<unprintable " ++ v.typeName ++ " object>"

def textEntry (location : List String) (e : Value × Value) : Checked (String × String) :=
  both (text (location ++ [keyName e.1, "[key]"]) e.1) (text (location ++ [keyName e.1]) e.2)

def textMapping (location : List String) : Value → Checked (List (String × String))
  | .mapping es =>
    match all (fun _ => textEntry location) 0 es with
    | .ok l => .ok (Assoc.ofList l)
    | .error e => .error e
  | _ => fail location .notMapping

def stripSpace (s : List Char) : List Char := Numeral.trimSpace s

def plainInteger? (s : List Char) : Option (Bool × List Char) :=
  let (negative, ds) := match s with
    | '-' :: r => (true, r)
    | r => (false, r)
  match ds with
  | ['0'] => some (negative, ds)
  | '0' :: _ => none
  | [] => none
  | _ => if ds.all fun c => '0' ≤ c && c ≤ '9' then some (negative, ds) else none

/-- Zeros and underscores before the first other digit; the last zero stays before a point and where
nothing follows. -/
def dropZeros : List Char → Option (List Char)
  | '0' :: r => go '0' r
  | c :: r => if ('1' ≤ c && c ≤ '9') || c = '-' then some (c :: r) else none
  | [] => none
where
  go (last : Char) : List Char → Option (List Char)
    | [] => some [last]
    | c :: r =>
      if c = '0' ∨ c = '_' then go c r
      else if '1' ≤ c && c ≤ '9' then some (c :: r)
      else if c = '.' then some (last :: c :: r)
      else none

def dropZeroFraction (s : List Char) : List Char :=
  let rest := s.dropWhile (· ≠ '.')
  if rest.drop 1 |>.all (· = '0') then s.takeWhile (· ≠ '.') else s

def dropUnderscores : List Char → Option (List Char)
  | '_' :: _ => none
  | s => go s
where
  go : List Char → Option (List Char)
    | [] => some []
    | ['_'] => none
    | '_' :: '_' :: _ => none
    | '_' :: c :: r => (go r).map (c :: ·)
    | c :: r => (go r).map (c :: ·)

def dropPlus : List Char → Option (List Char)
  | '+' :: '-' :: _ => none
  | '+' :: r => some r
  | s => some s

/-- An integer text with white space around it, a sign, zeros in front, underscores and a fraction
of zeros. -/
def looseInteger? (s : List Char) : Option (Bool × List Char) :=
  (dropPlus (stripSpace s)).bind fun s =>
    (dropZeros s).bind fun s => (dropUnderscores (dropZeroFraction s)).bind plainInteger?

def integerText (location : List String) (s : List Char) : Checked Int :=
  let value (p : Bool × List Char) : Checked Int :=
    let n := Numeral.ofDigits 10 (p.2.map fun c => c.toNat - '0'.toNat)
    .ok (if p.1 then -(n : Int) else n)
  match plainInteger? s with
  | some p => if p.2.length > Numeral.digitLimit then fail location .tooLarge else value p
  | none =>
    match looseInteger? s with
    | some p => if p.2.length > Numeral.digitLimit then fail location .notIntegerText else value p
    | none => fail location .notIntegerText

def integer (location : List String) : Value → Checked Int
  | .int n => .ok n
  | .bool b => .ok (if b then 1 else 0)
  | .float x =>
    if !x.isFinite then fail location .notFinite
    else
      match x.toInt? with
      | none => fail location .hasFraction
      | some n => if n.natAbs < 0x8000000000000000 then .ok n else fail location .tooLarge
  | .text s => integerText location s.toList
  | .bytes bs =>
    match ofBytes bs with
    | some s => integerText location s.toList
    | none => fail location .notIntegerText
  | _ => fail location .notInteger

def optional {α : Type} (check : Value → Checked α) : Value → Checked (Option α)
  | .null => .ok none
  | v => (check v).map some

def required {α : Type} (name : String) (check : List String → Value → Checked α)
    (location : List String) (fields : List (String × Value)) : Checked α :=
  match Assoc.get? name fields with
  | some v => check (location ++ [name]) v
  | none => fail (location ++ [name]) .missing

def field {α : Type} (name : String) (default : α) (check : List String → Value → Checked α)
    (fields : List (String × Value)) : Checked α :=
  match Assoc.get? name fields with
  | some v => check [name] v
  | none => .ok default

def textKeyed? : List (Value × Value) → Option (List (String × Value))
  | [] => some []
  | (.text k, v) :: es => (textKeyed? es).map ((k, v) :: ·)
  | _ => none

end Schema
end RouteDoc
