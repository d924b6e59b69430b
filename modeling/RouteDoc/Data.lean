import RouteDoc.Value
/-! What the files that the program writes can hold: numbers are finite, and keys are texts. -/
namespace RouteDoc

inductive Data where
  | null
  | bool (b : Bool)
  | int (n : Int)
  | float (x : Binary64)
  | text (s : String)
  | list (items : List Data)
  | mapping (entries : List (String × Data))
deriving Repr, Inhabited

namespace Data

def texts (l : List String) : Data := .list (l.map .text)

mutual
/-- A value as data. Numbers that are not finite become null and every sequence becomes a list. What is
nested deeper than `room` is no data, nor are values of other kinds. -/
def ofValue : Nat → Value → Option Data
  | 0, _ => none
  | _ + 1, .null => some .null
  | _ + 1, .bool b => some (.bool b)
  | _ + 1, .int n => some (.int n)
  | _ + 1, .float x => some (if x.isFinite then .float x else .null)
  | _ + 1, .text s => some (.text s)
  | room + 1, .list xs | room + 1, .tuple xs | room + 1, .set xs => (ofValues room xs).map .list
  | room + 1, .mapping es => (ofEntries room es).map .mapping
  | _ + 1, _ => none

def ofValues : Nat → List Value → Option (List Data)
  | _, [] => some []
  | room, v :: vs => do
    let d ← ofValue room v
    let ds ← ofValues room vs
    return d :: ds

def ofEntries : Nat → List (Value × Value) → Option (List (String × Data))
  | _, [] => some []
  | room, (.text k, v) :: es => do
    let d ← ofValue room v
    let ds ← ofEntries room es
    return (k, d) :: ds
  | _, _ :: _ => none
end

end Data
end RouteDoc
