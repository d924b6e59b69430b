import RouteDoc.Number.Binary64
import RouteDoc.Text.Blank
import RouteDoc.Text.Digit
/-! Numbers written as text: blanks around, a sign, decimal digits of any script with single
underscores between them. -/
namespace RouteDoc.Numeral
open Text

/-- The blanks that may surround a numeral: all but the information separators. -/
def isSpace (c : Char) : Bool := isBlank c && !(28 ≤ c.toNat && c.toNat ≤ 31)

def trimSpace (s : List Char) : List Char :=
  ((s.dropWhile isSpace).reverse.dropWhile isSpace).reverse

def splitSign : List Char → Bool × List Char
  | '-' :: r => (true, r)
  | '+' :: r => (false, r)
  | s => (false, s)

/-- The digits of a run in which single underscores may stand between two digits. `after` tells that
a digit stands before. -/
def digitRun (digit : Char → Option Nat) (after : Bool) : List Char → Option (List Nat)
  | [] => if after then some [] else none
  | c :: r =>
    if c = '_' then if after then digitRun digit false r else none
    else (digit c).bind fun d => (digitRun digit true r).map (d :: ·)

def ofDigits (base : Nat) (ds : List Nat) : Nat := ds.foldl (fun n d => n * base + d) 0

def digitLimit : Nat := 4300

def integer? (s : List Char) : Option Int :=
  let (negative, r) := splitSign (trimSpace s)
  (digitRun digit? false r).bind fun ds =>
    if ds.length > digitLimit then none
    else some (if negative then -(ofDigits 10 ds : Int) else ofDigits 10 ds)

def digitOf? (base : Nat) (c : Char) : Option Nat :=
  let d := match digit? c with
    | some d => some d
    | none =>
      if 'a' ≤ c && c ≤ 'f' then some (c.toNat - 'a'.toNat + 10)
      else if 'A' ≤ c && c ≤ 'F' then some (c.toNat - 'A'.toNat + 10)
      else none
  d.filter (· < base)

def baseLetter (base : Nat) : Option Char :=
  if base = 2 then some 'b' else if base = 8 then some 'o' else if base = 16 then some 'x' else none

def integerOfBase? (base : Nat) (s : List Char) : Option Int :=
  let (negative, r) := splitSign (trimSpace s)
  let r := match r with
    | z :: l :: r' =>
      if digit? z = some 0 ∧ baseLetter base = some l.toLower then
        match r' with
        | '_' :: r'' => r''
        | _ => r'
      else r
    | _ => r
  (digitRun (digitOf? base) false r).map fun ds =>
    if negative then -(ofDigits base ds : Int) else ofDigits base ds

def takeDigits (after : Bool) : List Char → List Nat × List Char
  | [] => ([], [])
  | c :: r =>
    match digit? c with
    | some d => let (ds, rest) := takeDigits true r; (d :: ds, rest)
    | none =>
      match c, r with
      | '_', c' :: _ =>
        if after && isDigit c' then takeDigits true r else ([], c :: r)
      | _, _ => ([], c :: r)

def takeFraction : List Char → List Nat × List Char
  | '.' :: r => takeDigits false r
  | s => ([], s)

def exponent? : List Char → Option Int
  | [] => some 0
  | c :: r =>
    if c = 'e' ∨ c = 'E' then
      let (negative, r) := splitSign r
      (digitRun digit? false r).map fun ds =>
        if negative then -(ofDigits 10 ds : Int) else ofDigits 10 ds
    else none

def special? (negative : Bool) (s : List Char) : Option Binary64 :=
  let word := String.ofList (s.map Char.toLower)
  if word = "inf" ∨ word = "infinity" then some (.infinite negative)
  else if word = "nan" then some .nan
  else none

def float? (s : List Char) : Option Binary64 :=
  let (negative, r) := splitSign (trimSpace s)
  match special? negative r with
  | some x => some x
  | none =>
    let (whole, r) := takeDigits false r
    let (fraction, r) := takeFraction r
    if whole.isEmpty && fraction.isEmpty then none
    else
      (exponent? r).map fun e =>
        .ofDecimal negative (ofDigits 10 (whole ++ fraction)) (e - fraction.length)

end RouteDoc.Numeral
