import RouteDoc.Text.Blank
import RouteDoc.Text.Lines
/-! The common margin of an indented text. Tabs count to the next column of eight, the first line
has no say in the margin because it stands beside the opening delimiter, and blank lines have none
because editors cut them short. -/
namespace RouteDoc.Text

def expandTabs (column : Nat) : List Char → List Char
  | [] => []
  | c :: r =>
    if c = '\t' then
      List.replicate (8 - column % 8) ' ' ++ expandTabs (column + (8 - column % 8)) r
    else c :: expandTabs (if c = '\n' ∨ c = '\r' then 0 else column + 1) r

def indent (line : List Char) : Nat := (line.takeWhile isBlank).length

def margin (ls : List (List Char)) : Nat :=
  ((ls.filter fun l => !l.all isBlank).map indent).min?.getD 0

def cutMargin : List (List Char) → List (List Char)
  | [] => []
  | l :: ls => trimStart l :: ls.map (·.drop (margin ls))

def trimEmpty (ls : List (List Char)) : List (List Char) :=
  ((ls.dropWhile List.isEmpty).reverse.dropWhile List.isEmpty).reverse

def dedent (s : List Char) : List Char :=
  unlines (trimEmpty (cutMargin ((expandTabs 0 s).splitOn '\n')))

end RouteDoc.Text
