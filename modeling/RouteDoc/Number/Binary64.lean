/-! Binary floating-point numbers of 64 bits. Every operation takes the exact result and rounds it
once, to the nearest number, a tie to the even significand. -/
namespace RouteDoc

/-- A finite number is `significand * 2 ^ exponent` with its sign, in the form that `round` makes:
the significand is below `2 ^ 53`, and at least `2 ^ 52` unless the exponent is the least one. -/
inductive Binary64 where
  | nan
  | infinite (negative : Bool)
  | finite (negative : Bool) (significand : Nat) (exponent : Int)
deriving DecidableEq, Repr

namespace Binary64

def leastExponent : Int := -1074
def greatestExponent : Int := 971

def zero (negative : Bool) : Binary64 := .finite negative 0 leastExponent

/-- The integer part of `num / den / 2 ^ e` and the rest as a fraction. -/
def scale (num den : Nat) (e : Int) : Nat × Nat × Nat :=
  let n := num * Nat.pow 2 (-e).toNat
  let d := den * Nat.pow 2 e.toNat
  (n / d, n % d, d)

def exponentFor (num den : Nat) : Int :=
  let e := (num.log2 : Int) - den.log2 - 52
  let e := if (scale num den e).1 < Nat.pow 2 52 then e - 1 else e
  max leastExponent e

def nearestEven (q rest d : Nat) : Nat :=
  if 2 * rest < d then q else if 2 * rest > d then q + 1 else q + q % 2

def round (negative : Bool) (num den : Nat) : Binary64 :=
  if num = 0 then zero negative
  else
    let e := exponentFor num den
    let (q, rest, d) := scale num den e
    let q := nearestEven q rest d
    let (q, e) := if q = Nat.pow 2 53 then (Nat.pow 2 52, e + 1) else (q, e)
    if e > greatestExponent then .infinite negative else .finite negative q e

def fraction (significand : Nat) (exponent : Int) : Nat × Nat :=
  (significand * Nat.pow 2 exponent.toNat, Nat.pow 2 (-exponent).toNat)

def ofInt (n : Int) : Binary64 := round (n < 0) n.natAbs 1

/-- The number nearest to `digits * 10 ^ power`. Magnitudes far outside the range are settled by
their length alone. -/
def ofDecimal (negative : Bool) (digits : Nat) (power : Int) : Binary64 :=
  let top := (Nat.toDigits 10 digits).length + power
  if digits = 0 then zero negative
  else if top > 310 then .infinite negative
  else if top < -330 then zero negative
  else round negative (digits * Nat.pow 10 power.toNat) (Nat.pow 10 (-power).toNat)

def neg : Binary64 → Binary64
  | .nan => .nan
  | .infinite s => .infinite !s
  | .finite s m e => .finite (!s) m e

def scaled (negative : Bool) (significand : Nat) (exponent : Int) : Int :=
  let n : Int := significand * Nat.pow 2 (exponent - leastExponent).toNat
  if negative then -n else n

def add : Binary64 → Binary64 → Binary64
  | .nan, _ => .nan
  | _, .nan => .nan
  | .infinite s, .infinite t => if s = t then .infinite s else .nan
  | .infinite s, _ => .infinite s
  | _, .infinite t => .infinite t
  | .finite s m e, .finite t n f =>
    let sum := scaled s m e + scaled t n f
    if sum = 0 then zero (s && t) else round (sum < 0) sum.natAbs (Nat.pow 2 1074)

def mul : Binary64 → Binary64 → Binary64
  | .nan, _ => .nan
  | _, .nan => .nan
  | .infinite s, .infinite t => .infinite (s != t)
  | .infinite s, .finite t n _ => if n = 0 then .nan else .infinite (s != t)
  | .finite s m _, .infinite t => if m = 0 then .nan else .infinite (s != t)
  | .finite s m e, .finite t n f =>
    let (a, b) := fraction m e
    let (c, d) := fraction n f
    round (s != t) (a * c) (b * d)

def toInt? : Binary64 → Option Int
  | .finite s m e =>
    let (a, b) := fraction m e
    if a % b = 0 then some (if s then -(a / b : Nat) else (a / b : Nat)) else none
  | _ => none

def isFinite : Binary64 → Bool
  | .finite .. => true
  | _ => false

def isZero : Binary64 → Bool
  | .finite _ m _ => m == 0
  | _ => false

end Binary64
end RouteDoc
