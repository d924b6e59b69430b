/-! The text ahead of a reader, and where the reader stands in it. -/
namespace RouteDoc.Yaml

structure Input where
  ahead : List Char
  index : Nat := 0
  line : Nat := 0
  column : Nat := 0

def isBreak (c : Char) : Bool :=
  c = '\n' || c = '\r' || c = '\u0085' || c = '\u2028' || c = '\u2029'

def isSeparator (c : Char) : Bool := c = ' ' || c = '\t' || isBreak c

def isAllowed (c : Char) : Bool :=
  let n := c.toNat
  n == 9 || n == 10 || n == 13 || (0x20 ≤ n && n ≤ 0x7E) || n == 0x85 ||
    (0xA0 ≤ n && n ≤ 0xD7FF) || (0xE000 ≤ n && n ≤ 0xFFFD) || 0x10000 ≤ n

def endsWord : List Char → Bool
  | [] => true
  | c :: _ => isSeparator c

def endsField : List Char → Bool
  | [] => true
  | c :: _ => c = ' ' || isBreak c

def endsLine : List Char → Bool
  | [] => true
  | c :: _ => isBreak c

def atMarker (mark : Char) : List Char → Bool
  | a :: b :: c :: r => a = mark && b = mark && c = mark && endsWord r
  | _ => false

def atAnyMarker (s : List Char) : Bool := atMarker '-' s || atMarker '.' s

def isNameChar (c : Char) : Bool :=
  ('0' ≤ c && c ≤ '9') || ('A' ≤ c && c ≤ 'Z') || ('a' ≤ c && c ≤ 'z') || c = '-' || c = '_'

namespace Input

/-- Passes one character. A byte order mark takes no column. -/
def advance (i : Input) : Input :=
  match i.ahead with
  | [] => i
  | c :: r =>
    if isBreak c && !(c = '\r' && r.head? = some '\n') then ⟨r, i.index + 1, i.line + 1, 0⟩
    else ⟨r, i.index + 1, i.line, if c = '\uFEFF' then i.column else i.column + 1⟩

def advanceBy (i : Input) : Nat → Input
  | 0 => i
  | n + 1 => i.advance.advanceBy n

def spanBy (p : Char → Bool) (i : Input) : List Char × Input :=
  let taken := i.ahead.takeWhile p
  (taken, i.advanceBy taken.length)

def skipSpaces (i : Input) : Input := (i.spanBy (· = ' ')).2

def skipComment (i : Input) : Input :=
  if i.ahead.head? = some '#' then (i.spanBy (!isBreak ·)).2 else i

/-- Passes a line break, if one comes next, and gives what it counts as in a scalar. -/
def takeBreak (i : Input) : List Char × Input :=
  match i.ahead with
  | '\r' :: '\n' :: _ => (['\n'], i.advance.advance)
  | c :: _ =>
    if c = '\u2028' ∨ c = '\u2029' then ([c], i.advance)
    else if isBreak c then (['\n'], i.advance)
    else ([], i)
  | [] => ([], i)

end Input
end RouteDoc.Yaml
