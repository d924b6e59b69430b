import RouteDoc.Number.Numeral
import RouteDoc.Value
/-! Reading JSON. The numbers `NaN`, `Infinity` and `-Infinity` are read too, and a repeated key keeps
its first place and takes its last value. An integer of too many digits and brackets nested deeper than
there is room for are errors of their own. -/
namespace RouteDoc.Json

inductive ReadError where
  | malformed
  | tooManyDigits
  | tooDeep
deriving DecidableEq, Repr

abbrev Read (α : Type) := Except ReadError (α × List Char)

def isSpace (c : Char) : Bool := c = ' ' || c = '\t' || c = '\n' || c = '\r'
def skipSpace (s : List Char) : List Char := s.dropWhile isSpace
def isDigit (c : Char) : Bool := '0' ≤ c && c ≤ '9'

def hexDigit? (c : Char) : Option Nat :=
  if isDigit c then some (c.toNat - '0'.toNat)
  else if 'a' ≤ c && c ≤ 'f' then some (c.toNat - 'a'.toNat + 10)
  else if 'A' ≤ c && c ≤ 'F' then some (c.toNat - 'A'.toNat + 10)
  else none

def unit? : List Char → Option (Nat × List Char)
  | a :: b :: c :: d :: r => do
    let a ← hexDigit? a
    let b ← hexDigit? b
    let c ← hexDigit? c
    let d ← hexDigit? d
    pure (a * 4096 + b * 256 + c * 16 + d, r)
  | _ => none

def isHigh (n : Nat) : Bool := 0xD800 ≤ n && n < 0xDC00
def isLow (n : Nat) : Bool := 0xDC00 ≤ n && n < 0xE000

/-- The character of an escape by number; two escapes may make one character, and half of a pair
makes the replacement character. -/
def escapedUnit? (s : List Char) : Option (Char × List Char) :=
  (unit? s).map fun (n, r) =>
    if isHigh n then
      match r with
      | '\\' :: 'u' :: r' =>
        match unit? r' with
        | some (m, r'') =>
          if isLow m then (Char.ofNat (0x10000 + (n - 0xD800) * 0x400 + (m - 0xDC00)), r'')
          else ('\uFFFD', r)
        | none => ('\uFFFD', r)
      | _ => ('\uFFFD', r)
    else if isLow n then ('\uFFFD', r)
    else (Char.ofNat n, r)

def simpleEscape? (c : Char) : Option Char :=
  [('"', '"'), ('\\', '\\'), ('/', '/'), ('b', '\x08'), ('f', '\x0c'), ('n', '\n'), ('r', '\r'),
    ('t', '\t')].lookup c

def readString : Nat → List Char → Read (List Char)
  | 0, _ => .error .malformed
  | fuel + 1, s =>
    match s with
    | [] => .error .malformed
    | '"' :: r => .ok ([], r)
    | '\\' :: 'u' :: r =>
      match escapedUnit? r with
      | none => .error .malformed
      | some (c, r) => (readString fuel r).map fun (cs, r) => (c :: cs, r)
    | '\\' :: c :: r =>
      match simpleEscape? c with
      | none => .error .malformed
      | some e => (readString fuel r).map fun (cs, r) => (e :: cs, r)
    | c :: r =>
      if c.toNat < 32 then .error .malformed
      else (readString fuel r).map fun (cs, r) => (c :: cs, r)

def spanDigits (s : List Char) : List Char × List Char := (s.takeWhile isDigit, s.dropWhile isDigit)

def fraction? : List Char → Option (List Char × List Char)
  | '.' :: r => if (spanDigits r).1.isEmpty then none else some (spanDigits r)
  | _ => none

def exponent? : List Char → Option (Bool × List Char × List Char)
  | c :: r =>
    if c = 'e' ∨ c = 'E' then
      let (negative, r) := Numeral.splitSign r
      if (spanDigits r).1.isEmpty then none else some (negative, spanDigits r)
    else none
  | [] => none

def value (ds : List Char) : Nat := Numeral.ofDigits 10 (ds.map fun c => c.toNat - '0'.toNat)

def integerPart? : List Char → Option (List Char × List Char)
  | '0' :: r => some (['0'], r)
  | s => if (spanDigits s).1.isEmpty then none else some (spanDigits s)

def number (negative : Bool) (s : List Char) : Read Value :=
  match integerPart? s with
  | none => .error .malformed
  | some (whole, r) =>
    match fraction? r, exponent? ((fraction? r).map (·.2) |>.getD r) with
    | none, none =>
      if whole.length > Numeral.digitLimit then .error .tooManyDigits
      else .ok (.int (if negative then -(value whole : Int) else value whole), r)
    | f, e =>
      let fraction := (f.map (·.1)).getD []
      let power : Int := match e with
        | some (true, ds, _) => -(value ds : Int)
        | some (false, ds, _) => value ds
        | none => 0
      let rest := match e with
        | some (_, _, r) => r
        | none => (f.map (·.2)).getD r
      .ok (.float (.ofDecimal negative (value (whole ++ fraction)) (power - fraction.length)), rest)

def afterWord? (word : String) (s : List Char) : Option (List Char) :=
  if word.toList.isPrefixOf s then some (s.drop word.length) else none

def word (s : List Char) : Read Value :=
  match [("null", Value.null), ("true", .bool true), ("false", .bool false), ("NaN", .float .nan),
      ("Infinity", .float (.infinite false))].findSome? fun (w, v) =>
        (afterWord? w s).map fun r => (v, r) with
  | some p => .ok p
  | none => .error .malformed

mutual
/-- The value that a text starts with, no space before it. Brackets may be nested `room` deep. -/
def readValue (room : Nat) : Nat → List Char → Read Value
  | 0, _ => .error .malformed
  | fuel + 1, s =>
    match s with
    | '"' :: r => (readString (r.length + 1) r).map fun (cs, r) => (.text (String.ofList cs), r)
    | '[' :: r =>
      match room with
      | 0 => .error .tooDeep
      | room + 1 =>
        match skipSpace r with
        | ']' :: r => .ok (.list [], r)
        | r => (readItems room fuel r).map fun (vs, r) => (.list vs, r)
    | '\x7b' :: r =>
      match room with
      | 0 => .error .tooDeep
      | room + 1 =>
        match skipSpace r with
        | '\x7d' :: r => .ok (.mapping [], r)
        | r => (readEntries room fuel r).map fun (es, r) => (.ofPairs es, r)
    | '-' :: r =>
      match afterWord? "Infinity" r with
      | some r => .ok (.float (.infinite true), r)
      | none => number true r
    | c :: _ => if isDigit c then number false s else word s
    | [] => .error .malformed

def readItems (room : Nat) : Nat → List Char → Read (List Value)
  | 0, _ => .error .malformed
  | fuel + 1, s =>
    match readValue room fuel s with
    | .error e => .error e
    | .ok (v, r) =>
      match skipSpace r with
      | ']' :: r => .ok ([v], r)
      | ',' :: r => (readItems room fuel (skipSpace r)).map fun (vs, r) => (v :: vs, r)
      | _ => .error .malformed

def readEntries (room : Nat) : Nat → List Char → Read (List (Value × Value))
  | 0, _ => .error .malformed
  | fuel + 1, s =>
    match s with
    | '"' :: r =>
      match readString (r.length + 1) r with
      | .error e => .error e
      | .ok (key, r) =>
        match skipSpace r with
        | ':' :: r =>
          match readValue room fuel (skipSpace r) with
          | .error e => .error e
          | .ok (v, r) =>
            let entry := (.text (String.ofList key), v)
            match skipSpace r with
            | '\x7d' :: r => .ok ([entry], r)
            | ',' :: r => (readEntries room fuel (skipSpace r)).map fun (es, r) => (entry :: es, r)
            | _ => .error .malformed
        | _ => .error .malformed
    | _ => .error .malformed
end

/-- The value of a whole text. Every call within takes a character first, so the fuel lasts. -/
def read (room : Nat) (s : List Char) : Except ReadError Value :=
  match readValue room (2 * s.length + 2) (skipSpace s) with
  | .error e => .error e
  | .ok (v, r) => if (skipSpace r).isEmpty then .ok v else .error .malformed

end RouteDoc.Json
