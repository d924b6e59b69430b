import RouteDoc.Assoc
import RouteDoc.Number.Binary64
import RouteDoc.Raised
/-! Values of dynamic type: what data files, sample responses, rules and examples hold. -/
namespace RouteDoc

structure Clock where
  hour : Nat
  minute : Nat
  second : Nat
  microsecond : Nat
  offset : Option Int
deriving DecidableEq, Repr

structure Moment where
  year : Nat
  month : Nat
  day : Nat
  clock : Option Clock
deriving DecidableEq, Repr

inductive Value where
  | null
  | bool (b : Bool)
  | int (n : Int)
  | float (x : Binary64)
  | text (s : String)
  | list (items : List Value)
  | tuple (items : List Value)
  | mapping (entries : List (Value × Value))
  | set (members : List Value)
  | bytes (data : List UInt8)
  | moment (m : Moment)
  /-- An object known by the text it shows alone and inside others, or by what it raises instead. -/
  | object (alone inside : Except Raised String)
deriving Inhabited

namespace Value

/-- The integer that a value equals as a key: truth values count as one and zero. -/
def integral? : Value → Option Int
  | .bool b => some (if b then 1 else 0)
  | .int n => some n
  | .float x => x.toInt?
  | _ => none

mutual
/-- Whether two values are one key. Numbers are one key when they are equal as numbers. -/
def sameKey : Value → Value → Bool
  | .null, .null => true
  | .text s, .text t => s == t
  | .bytes a, .bytes b => a == b
  | .moment a, .moment b => a == b
  | .tuple a, .tuple b => sameKeys a b
  | .float .nan, _ => false
  | .float x, .float y => x == y || (x.isZero && y.isZero)
  | a, b =>
    match integral? a, integral? b with
    | some m, some n => m == n
    | _, _ => false

def sameKeys : List Value → List Value → Bool
  | [], [] => true
  | a :: r, b :: s => sameKey a b && sameKeys r s
  | _, _ => false
end

instance : BEq Value := ⟨sameKey⟩

/-- A mapping from pairs, the last value of a key in its first place. -/
def ofPairs (l : List (Value × Value)) : Value := .mapping (Assoc.ofList l)

def holds : Value → Bool
  | .null => false
  | .bool b => b
  | .int n => n != 0
  | .float x => !x.isZero
  | .text s => s != ""
  | .list xs | .tuple xs | .set xs => !xs.isEmpty
  | .mapping es => !es.isEmpty
  | .bytes bs => !bs.isEmpty
  | .moment _ | .object .. => true

def typeName : Value → String
  | .null => "NoneType"
  | .bool _ => "bool"
  | .int _ => "int"
  | .float _ => "float"
  | .text _ => "str"
  | .list _ => "list"
  | .tuple _ => "tuple"
  | .mapping _ => "dict"
  | .set _ => "set"
  | .bytes _ => "bytes"
  | .moment m => if m.clock.isSome then "datetime.datetime" else "datetime.date"
  | .object .. => "object"

end Value
end RouteDoc
