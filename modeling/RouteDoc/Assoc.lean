/-! Ordered maps as lists of pairs. A key keeps the place where it first came and takes the value
that came last. -/
namespace RouteDoc.Assoc
variable {κ α : Type} [BEq κ]

def insert (k : κ) (v : α) : List (κ × α) → List (κ × α)
  | [] => [(k, v)]
  | (k', v') :: m => if k' == k then (k', v) :: m else (k', v') :: insert k v m

def insertAll (m l : List (κ × α)) : List (κ × α) := l.foldl (fun m p => insert p.1 p.2 m) m

def ofList (l : List (κ × α)) : List (κ × α) := insertAll [] l

def get? (k : κ) : List (κ × α) → Option α
  | [] => none
  | (k', v) :: m => if k' == k then some v else get? k m

def keys (m : List (κ × α)) : List κ := m.map (·.1)

end RouteDoc.Assoc
