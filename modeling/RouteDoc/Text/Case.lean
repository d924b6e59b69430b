import RouteDoc.Text.CaseTable
/-! Upper and lower case of a text, character by character; an image may have several letters. -/
namespace RouteDoc.Text

def CaseRow.holds (r : CaseRow) (n : Nat) : Bool :=
  r.first ≤ n && n ≤ r.last && (n - r.first) % r.step == 0

def CaseRow.image (r : CaseRow) (n : Nat) : Char := Char.ofNat (Int.toNat (n + r.offset))

def mapCase (rows : List CaseRow) (expansions : List (Nat × List Nat)) (c : Char) : List Char :=
  match expansions.lookup c.toNat with
  | some image => image.map Char.ofNat
  | none =>
    match rows.find? (·.holds c.toNat) with
    | some r => [r.image c.toNat]
    | none => [c]

def upperChar (c : Char) : List Char :=
  if c.toNat < 128 then [c.toUpper] else mapCase upperRows upperExpansions c

def lowerChar (c : Char) : List Char :=
  if c.toNat < 128 then [c.toLower] else mapCase lowerRows lowerExpansions c

def upper (s : String) : String := String.ofList (s.toList.flatMap upperChar)
def lower (s : String) : String := String.ofList (s.toList.flatMap lowerChar)

end RouteDoc.Text
