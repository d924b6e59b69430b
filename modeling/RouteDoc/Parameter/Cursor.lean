import RouteDoc.Text.Blank
/-! A cursor that walks the words of a text and keeps what it has passed. -/
namespace RouteDoc
open Text

structure Cursor where
  passed : List Char
  ahead : List Char
deriving DecidableEq, Repr

namespace Cursor

def start (s : List Char) : Cursor := ⟨[], s⟩

def text (c : Cursor) : List Char := c.passed ++ c.ahead
def position (c : Cursor) : Nat := c.passed.length

def splitWord (s : List Char) : Option (List Char × List Char × List Char) :=
  match s.dropWhile isBlank with
  | [] => none
  | c :: r =>
    some (s.takeWhile isBlank, (c :: r).takeWhile (!isBlank ·), (c :: r).dropWhile (!isBlank ·))

/-- Moves past the next word; with no word left the cursor stays. -/
def next (c : Cursor) : Option (List Char) × Cursor :=
  match splitWord c.ahead with
  | none => (none, c)
  | some (blanks, word, rest) => (some word, ⟨c.passed ++ blanks ++ word, rest⟩)

def peek (c : Cursor) : Option (List Char) × Bool :=
  match splitWord c.ahead with
  | none => (none, false)
  | some (_, word, rest) => (some word, rest.head?.any isBlank)

def hasMore (c : Cursor) : Bool := !c.ahead.isEmpty

def rest (c : Cursor) : List Char × Cursor := (c.ahead, ⟨c.passed ++ c.ahead, []⟩)

end Cursor
end RouteDoc
