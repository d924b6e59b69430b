import RouteDoc.Number.Binary64
/-! The shortest decimal text of a floating-point number: the fewest digits that read back as the
number, of those the nearest to it, laid out by a record. -/
namespace RouteDoc.Binary64

structure Decimal where
  digits : Nat
  power : Int
deriving DecidableEq, Repr

def digitCount (n : Nat) : Nat := (Nat.toDigits 10 n).length

/-- The place `p` of the first digit of a positive `x = num / den`: `0.1 ≤ x / 10 ^ p < 1`. -/
def pointPlace (num den : Nat) : Int :=
  let guess : Int := (digitCount num : Int) - digitCount den
  if num * Nat.pow 10 (-guess).toNat < den * Nat.pow 10 guess.toNat then guess else guess + 1

/-- The neighbours of a magnitude on the grid of `count` digits that read back, the nearer one first
and of two equally near ones the even one. -/
def candidates (num den count : Nat) (readsBack : Decimal → Bool) : List Decimal :=
  let power := pointPlace num den - count
  let n := num * Nat.pow 10 (-power).toNat
  let d := den * Nat.pow 10 power.toNat
  let q := n / d
  let low : Decimal := ⟨q, power⟩
  let high : Decimal := ⟨q + 1, power⟩
  let lowFirst := 2 * (n % d) < d || (2 * (n % d) == d && q % 2 == 0)
  (if lowFirst then [low, high] else [high, low]).filter readsBack

def allDigits (num den : Nat) : Decimal := ⟨num * Nat.pow 5 den.log2, -(den.log2 : Int)⟩

def search (num den : Nat) (readsBack : Decimal → Bool) (count : Nat) : Nat → Decimal
  | 0 => allDigits num den
  | more + 1 =>
    match candidates num den count readsBack with
    | c :: _ => c
    | [] => search num den readsBack (count + 1) more

def Decimal.strip (d : Decimal) : Nat → Decimal
  | 0 => d
  | n + 1 => if d.digits ≠ 0 ∧ d.digits % 10 = 0 then strip ⟨d.digits / 10, d.power + 1⟩ n else d

def shortest (significand : Nat) (exponent : Int) : Decimal :=
  if significand = 0 then ⟨0, 0⟩
  else
    let x := finite false significand exponent
    let (num, den) := fraction significand exponent
    (search num den (fun c => ofDecimal false c.digits c.power == x) 1 17).strip 17

structure Layout where
  leastPlace : Int
  greatestPlace : Int
  exponentMark : Char
  exponentDigits : Nat
  /-- Whether a single digit before an exponent has a point and a zero after it. -/
  alwaysFraction : Bool
  infinity : String
  notANumber : String

/-- Positional from `0.0001` to below `1e16`, and then always with a point; an exponent has its sign
and at least two digits. -/
def plainLayout : Layout := ⟨-4, 16, 'e', 2, false, "inf", "nan"⟩

def Layout.positional (ds : List Char) (place : Int) : List Char :=
  if place ≤ 0 then '0' :: '.' :: List.replicate (-place).toNat '0' ++ ds
  else
    let n := place.toNat
    if ds.length ≤ n then ds ++ List.replicate (n - ds.length) '0' ++ ['.', '0']
    else ds.take n ++ '.' :: ds.drop n

def Layout.scientific (l : Layout) (ds : List Char) (place : Int) : List Char :=
  let e := place - 1
  let es := Nat.toDigits 10 e.natAbs
  let fraction := match ds.tail with
    | [] => if l.alwaysFraction then ['.', '0'] else []
    | f => '.' :: f
  ds.take 1 ++ fraction ++ l.exponentMark :: (if e < 0 then '-' else '+') ::
    (List.replicate (l.exponentDigits - es.length) '0' ++ es)

def Layout.text (l : Layout) : Binary64 → String
  | .nan => l.notANumber
  | .infinite s => if s then "-" ++ l.infinity else l.infinity
  | .finite s m e =>
    let d := shortest m e
    let ds := Nat.toDigits 10 d.digits
    let place := if m = 0 then 1 else (ds.length : Int) + d.power
    let body :=
      if l.leastPlace < place && place ≤ l.greatestPlace then Layout.positional ds place
      else l.scientific ds place
    String.ofList (if s then '-' :: body else body)

def text (x : Binary64) : String := plainLayout.text x

end RouteDoc.Binary64
