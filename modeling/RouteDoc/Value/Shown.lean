import RouteDoc.Number.Numeral
import RouteDoc.Number.Shortest
import RouteDoc.Text.Quoted
import RouteDoc.Value
/-! Values as text, the way rules and messages show them. Integers of too many digits and values nested
too deep have none. -/
namespace RouteDoc.Value
open Text

def usualRoom : Nat := 900

def showByte (quote : Char) (b : UInt8) : List Char :=
  let c := Char.ofNat b.toNat
  if c = quote ∨ c = '\\' then ['\\', c]
  else if c = '\n' then ['\\', 'n']
  else if c = '\r' then ['\\', 'r']
  else if c = '\t' then ['\\', 't']
  else if 32 ≤ b.toNat ∧ b.toNat < 127 then [c]
  else '\\' :: 'x' :: hex 2 b.toNat

def showBytes (bs : List UInt8) : List Char :=
  let q := quoteFor (bs.map fun b => Char.ofNat b.toNat)
  'b' :: q :: bs.flatMap (showByte q) ++ [q]

def padded (width n : Nat) : String :=
  let ds := Nat.toDigits 10 n
  String.ofList (List.replicate (width - ds.length) '0' ++ ds)

def offsetInside : Option Int → String
  | none => ""
  | some 0 => ", tzinfo=datetime.timezone.utc"
  | some m =>
    let seconds := (m * 60) % 86400
    let days := (m * 60) / 86400
    let d := if days = 0 then "" else "days=" ++ toString days ++ ", "
    ", tzinfo=datetime.timezone(datetime.timedelta(" ++ d ++ "seconds=" ++ toString seconds ++ "))"

def momentInside (m : Moment) : String :=
  let date := toString m.year ++ ", " ++ toString m.month ++ ", " ++ toString m.day
  match m.clock with
  | none => "datetime.date(" ++ date ++ ")"
  | some t =>
    let micro := if t.microsecond = 0 then "" else ", " ++ toString t.microsecond
    let second := if t.second = 0 ∧ t.microsecond = 0 then "" else ", " ++ toString t.second
    "datetime.datetime(" ++ date ++ ", " ++ toString t.hour ++ ", " ++ toString t.minute ++
      second ++ micro ++ offsetInside t.offset ++ ")"

def offsetAlone : Option Int → String
  | none => ""
  | some m =>
    (if m < 0 then "-" else "+") ++ padded 2 (m.natAbs / 60) ++ ":" ++ padded 2 (m.natAbs % 60)

def momentAlone (m : Moment) : String :=
  let date := padded 4 m.year ++ "-" ++ padded 2 m.month ++ "-" ++ padded 2 m.day
  match m.clock with
  | none => date
  | some t =>
    let micro := if t.microsecond = 0 then "" else "." ++ padded 6 t.microsecond
    date ++ " " ++ padded 2 t.hour ++ ":" ++ padded 2 t.minute ++ ":" ++ padded 2 t.second ++ micro ++
      offsetAlone t.offset

def showInteger (n : Int) : Except Raised String :=
  if (Nat.toDigits 10 n.natAbs).length > Numeral.digitLimit then .error .tooManyDigits
  else .ok (toString n)

mutual
/-- The text of a value inside another: texts are quoted. Values may be nested `room` deep. -/
def shownInside : Nat → Value → Except Raised String
  | 0, _ => .error .tooDeep
  | _ + 1, .null => .ok "None"
  | _ + 1, .bool b => .ok (if b then "True" else "False")
  | _ + 1, .int n => showInteger n
  | _ + 1, .float x => .ok x.text
  | _ + 1, .text s => .ok (quoted s)
  | room + 1, .list xs => (shownItems room xs).map fun ts => "[" ++ ", ".intercalate ts ++ "]"
  | room + 1, .tuple [x] => (shownInside room x).map fun t => "(" ++ t ++ ",)"
  | room + 1, .tuple xs => (shownItems room xs).map fun ts => "(" ++ ", ".intercalate ts ++ ")"
  | room + 1, .mapping es =>
    (shownEntries room es).map fun ts => "\x7b" ++ ", ".intercalate ts ++ "\x7d"
  | _ + 1, .set [] => .ok "set()"
  | room + 1, .set xs => (shownItems room xs).map fun ts => "\x7b" ++ ", ".intercalate ts ++ "\x7d"
  | _ + 1, .bytes bs => .ok (String.ofList (showBytes bs))
  | _ + 1, .moment m => .ok (momentInside m)
  | _ + 1, .object _ inside => inside

def shownItems : Nat → List Value → Except Raised (List String)
  | _, [] => .ok []
  | room, x :: xs => do
    let t ← shownInside room x
    let ts ← shownItems room xs
    return t :: ts

def shownEntries : Nat → List (Value × Value) → Except Raised (List String)
  | _, [] => .ok []
  | room, (k, v) :: es => do
    let t ← shownInside room k
    let u ← shownInside room v
    let ts ← shownEntries room es
    return (t ++ ": " ++ u) :: ts
end

def shown : Nat → Value → Except Raised String
  | _, .text s => .ok s
  | _ + 1, .moment m => .ok (momentAlone m)
  | _ + 1, .object alone _ => alone
  | room, v => shownInside room v

end RouteDoc.Value
