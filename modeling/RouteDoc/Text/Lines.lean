/-! Lines of a text. Ten boundaries end a line; a carriage return and the line feed after it are one
boundary, and a boundary at the end of the text starts no further line. -/
namespace RouteDoc.Text

def isLineEnd (c : Char) : Bool :=
  let n := c.toNat
  (10 ≤ n && n ≤ 13) || (28 ≤ n && n ≤ 30) || n == 0x85 || n == 0x2028 || n == 0x2029

def consLine (c : Char) : List (List Char) → List (List Char)
  | [] => [[c]]
  | l :: ls => (c :: l) :: ls

def lines : List Char → List (List Char)
  | [] => []
  | '\r' :: '\n' :: r => [] :: lines r
  | c :: r => if isLineEnd c then [] :: lines r else consLine c (lines r)

def unlines (ls : List (List Char)) : List Char := ['\n'].intercalate ls

end RouteDoc.Text
