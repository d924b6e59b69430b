import RouteDoc.Text.Quoted
import RouteDoc.Yaml.Plain
/-! How texts are written as scalars: plain where that reads back as the same text, else in
apostrophes, else in quotation marks. Long lines are broken at single spaces. -/
namespace RouteDoc.Yaml
open Text

inductive ScalarStyle where
  | plain
  | apostrophes
  | quotationMarks
deriving DecidableEq, Repr

namespace ScalarLayout

def isBreak (c : Char) : Bool := c = '\n' || c = '\u0085' || c = '\u2028' || c = '\u2029'

def isSeparator (c : Char) : Bool :=
  c = '\x00' || c = ' ' || c = '\t' || c = '\r' || isBreak c

def isMultiline (s : List Char) : Bool := s.any isBreak

def isSpecial (c : Char) : Bool :=
  let n := c.toNat
  !(n == 10 || (0x20 ≤ n && n ≤ 0x7E) || n == 0x85 || (0xA0 ≤ n && n ≤ 0xD7FF) ||
    (0xE000 ≤ n && n ≤ 0xFFFD && n != 0xFEFF) || (0x10000 ≤ n && n < 0x10FFFF))

def hasPair (p q : Char → Bool) : List Char → Bool
  | a :: b :: r => (p a && q b) || hasPair p q (b :: r)
  | _ => false

def isSpace (c : Char) : Bool := c = ' '

def startsMarked : List Char → Bool
  | [] => false
  | c :: r =>
    let alone := match r with
      | [] => true
      | d :: _ => isSeparator d
    "#,[]\x7b\x7d&*!|>'\"%@\x60".toList.contains c || ("?:-".toList.contains c && alone) ||
      "---".toList.isPrefixOf (c :: r) || "...".toList.isPrefixOf (c :: r)

def hasMarkInside (s : List Char) : Bool :=
  hasPair (· = ':') isSeparator s || s.getLast? == some ':' || hasPair isSeparator (· = '#') s

def allowsPlain (s : List Char) : Bool :=
  !s.isEmpty && !startsMarked s && !hasMarkInside s && !isMultiline s && !s.any isSpecial &&
    s.head? != some ' ' && s.getLast? != some ' '

def allowsApostrophes (s : List Char) : Bool :=
  !s.any isSpecial && !hasPair isSpace isBreak s && !hasPair isBreak isSpace s

def styleOf (isKey : Bool) (s : String) : ScalarStyle :=
  if allowsPlain s.toList && Plain.typeOf s == .text then .plain
  else if allowsApostrophes s.toList && !(isKey && isMultiline s.toList) then .apostrophes
  else .quotationMarks

def width : Nat := 80

def blanks (n : Nat) : List Char := List.replicate n ' '

/-- The text of a plain scalar or of one in apostrophes, from a column on and after the character
`before`. A single space inside a line that is too long becomes the end of the line, and the first
of several line feeds is written twice. -/
def fold (spell : Char → List Char) (breakLines : Bool) (indent : Nat) (before : Option Char)
    (column : Nat) : List Char → List Char
  | [] => []
  | c :: r =>
    if c = ' ' then
      let single := before.isSome && before != some ' ' && !r.isEmpty && r.head? != some ' '
      if breakLines && single && column > width then
        '\n' :: blanks indent ++ fold spell breakLines indent (some c) indent r
      else ' ' :: fold spell breakLines indent (some c) (column + 1) r
    else if isBreak c then
      let extra := if c = '\n' && !before.any isBreak then ['\n'] else []
      let margin := if r.head?.any isBreak then [] else blanks indent
      extra ++ c :: margin ++ fold spell breakLines indent (some c) indent r
    else
      spell c ++ fold spell breakLines indent (some c) (column + (spell c).length) r

def doubleApostrophe (c : Char) : List Char := if c = '\'' then ['\'', '\''] else [c]

def shortEscape? (c : Char) : Option Char :=
  [('\x00', '0'), ('\x07', 'a'), ('\x08', 'b'), ('\t', 't'), ('\n', 'n'), ('\x0b', 'v'),
    ('\x0c', 'f'), ('\r', 'r'), ('\x1b', 'e'), ('"', '"'), ('\\', '\\'), ('\u0085', 'N'),
    ('\u2028', 'L'), ('\u2029', 'P')].lookup c

def hexUpper (size n : Nat) : List Char := (hex size n).map Char.toUpper

def escape? (c : Char) : Option (List Char) :=
  let n := c.toNat
  match shortEscape? c with
  | some e => some ['\\', e]
  | none =>
    if (0x20 ≤ n && n ≤ 0x7E) || (0xA0 ≤ n && n ≤ 0xD7FF) ||
        (0xE000 ≤ n && n ≤ 0xFFFD && n != 0xFEFF) then none
    else if n ≤ 0xFF then some ('\\' :: 'x' :: hexUpper 2 n)
    else if n ≤ 0xFFFF then some ('\\' :: 'u' :: hexUpper 4 n)
    else some ('\\' :: 'U' :: hexUpper 8 n)

/-- A backslash ends a line that goes on, and one more keeps a space at the start of the next. -/
def breakBefore (indent : Nat) (rest : List Char) : List Char :=
  '\\' :: '\n' :: blanks indent ++ if rest.head? == some ' ' then ['\\'] else []

def columnAfterBreak (indent : Nat) (rest : List Char) : Nat :=
  if rest.head? == some ' ' then indent + 1 else indent

/-- The text between quotation marks, from a column on. A line that is too long is broken before a
space and on both sides of an escape, but not next to the marks. -/
def escaped (breakLines : Bool) (indent : Nat) (first afterEscape : Bool) (column : Nat) :
    List Char → List Char
  | [] => []
  | c :: r =>
    let inside := breakLines && !first && !r.isEmpty
    match escape? c with
    | some e =>
      let column := column + e.length
      if inside && column > width + 1 then
        e ++ breakBefore indent r ++
          escaped breakLines indent false true (columnAfterBreak indent r) r
      else e ++ escaped breakLines indent false true column r
    | none =>
      if inside && (c = ' ' || afterEscape) && column > width then
        breakBefore indent (c :: r) ++
          c :: escaped breakLines indent false false (columnAfterBreak indent (c :: r) + 1) r
      else c :: escaped breakLines indent false false (column + 1) r

def write (isKey : Bool) (indent column : Nat) (s : String) : List Char :=
  match styleOf isKey s with
  | .plain => fold (fun c => [c]) (!isKey) indent none column s.toList
  | .apostrophes =>
    '\'' :: fold doubleApostrophe (!isKey) indent none (column + 1) s.toList ++ ['\'']
  | .quotationMarks => '"' :: escaped (!isKey) indent true false (column + 1) s.toList ++ ['"']

end ScalarLayout
end RouteDoc.Yaml
