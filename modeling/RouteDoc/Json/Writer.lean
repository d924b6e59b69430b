import RouteDoc.Data
import RouteDoc.Number.Shortest
import RouteDoc.Text.Quoted
/-! Writing JSON: an item or entry a line, two blanks deeper than the line that opens the
collection. Only marks, backslashes and control characters are escaped. -/
namespace RouteDoc.Json
open Text

def shortEscape? (c : Char) : Option Char :=
  [('"', '"'), ('\\', '\\'), ('\n', 'n'), ('\r', 'r'), ('\t', 't'), ('\x08', 'b'),
    ('\x0c', 'f')].lookup c

def writeChar (c : Char) : List Char :=
  match shortEscape? c with
  | some e => ['\\', e]
  | none => if c.toNat < 32 then '\\' :: 'u' :: hex 4 c.toNat else [c]

def writeText (s : List Char) : List Char := '"' :: s.flatMap writeChar ++ ['"']

def newline (indent : Nat) : List Char := '\n' :: List.replicate indent ' '

mutual
def writeAt (indent : Nat) : Data → List Char
  | .null => "null".toList
  | .bool b => (if b then "true" else "false").toList
  | .int n => (toString n).toList
  | .float x => x.text.toList
  | .text s => writeText s.toList
  | .list [] => ['[', ']']
  | .list (d :: ds) =>
    '[' :: newline (indent + 2) ++ writeAt (indent + 2) d ++ writeItems (indent + 2) ds ++
      newline indent ++ [']']
  | .mapping [] => ['{', '}']
  | .mapping ((k, d) :: es) =>
    '{' :: newline (indent + 2) ++ writeText k.toList ++ ':' :: ' ' :: writeAt (indent + 2) d ++
      writeEntries (indent + 2) es ++ newline indent ++ ['}']

def writeItems (indent : Nat) : List Data → List Char
  | [] => []
  | d :: ds => ',' :: newline indent ++ writeAt indent d ++ writeItems indent ds

def writeEntries (indent : Nat) : List (String × Data) → List Char
  | [] => []
  | (k, d) :: es =>
    ',' :: newline indent ++ writeText k.toList ++ ':' :: ' ' :: writeAt indent d ++
      writeEntries indent es
end

def write (d : Data) : String := String.ofList (writeAt 0 d ++ ['\n'])

end RouteDoc.Json
