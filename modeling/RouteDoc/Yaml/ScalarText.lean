import RouteDoc.Json.Reader
import RouteDoc.Yaml.Input
import RouteDoc.Yaml.Token
/-! The texts of scalars in their four notations: plain, quoted, literal and folded. -/
namespace RouteDoc.Yaml
open Input

def plainBreaks (acc : List Char) : Nat → Input → Option (List Char) × Input
  | 0, i => (some acc, i)
  | fuel + 1, i =>
    match i.ahead with
    | [] => (some acc, i)
    | c :: _ =>
      if c = ' ' then plainBreaks acc fuel i.advance
      else if isBreak c then
        let (b, i) := i.takeBreak
        if atAnyMarker i.ahead then (none, i) else plainBreaks (acc ++ b) fuel i
      else (some acc, i)

/-- What the first break of a fold and the breaks after it count as: a single line feed is a space,
and the first of several is dropped. -/
def foldBreaks (first breaks : List Char) : List Char :=
  if first ≠ ['\n'] then first ++ breaks else if breaks.isEmpty then [' '] else breaks

def plainSpace (i : Input) : List Char × Bool × Input :=
  let (spaces, i) := i.spanBy (· = ' ')
  let (first, j) := i.takeBreak
  if first.isEmpty then (spaces, false, i)
  else if atAnyMarker j.ahead then ([], true, j)
  else
    match plainBreaks [] j.ahead.length j with
    | (none, k) => ([], true, k)
    | (some breaks, k) => (foldBreaks first breaks, true, k)

def isFlowMark (c : Char) : Bool := c = ',' || c = '[' || c = ']' || c = '{' || c = '}'

def plainLength (inFlow : Bool) : List Char → Nat
  | [] => 0
  | c :: r =>
    if isSeparator c then 0
    else if c = ':' && (endsWord r || (inFlow && (r.head?.map isFlowMark).getD false)) then 0
    else if inFlow && (isFlowMark c || c = '?') then 0
    else plainLength inFlow r + 1

def plainText (inFlow : Bool) (indent : Int) (acc space : List Char) (atEnd : Bool) :
    Nat → Input → List Char × Bool × Input
  | 0, i => (acc, atEnd, i)
  | fuel + 1, i =>
    let n := plainLength inFlow i.ahead
    if i.ahead.head? = some '#' ∨ n = 0 then (acc, atEnd, i)
    else
      let acc := acc ++ space ++ i.ahead.take n
      let (space, atEnd, i) := plainSpace (i.advanceBy n)
      if space.isEmpty || i.ahead.head? = some '#' || (!inFlow && i.column < indent) then
        (acc, atEnd, i)
      else plainText inFlow indent acc space atEnd fuel i

def quotedBreaks (acc : List Char) : Nat → Input → Except ReadError (List Char × Input)
  | 0, _ => .error .malformed
  | fuel + 1, i =>
    if atAnyMarker i.ahead then .error .malformed
    else
      let (_, i) := i.spanBy fun c => c = ' ' || c = '\t'
      match i.takeBreak with
      | ([], i) => .ok (acc, i)
      | (b, i) => quotedBreaks (acc ++ b) fuel i

def simpleEscape? (c : Char) : Option Char :=
  [('0', '\x00'), ('a', '\x07'), ('b', '\x08'), ('t', '\t'), ('\t', '\t'), ('n', '\n'),
    ('v', '\x0b'), ('f', '\x0c'), ('r', '\r'), ('e', '\x1b'), (' ', ' '), ('"', '"'), ('\\', '\\'),
    ('/', '/'), ('N', '\u0085'), ('_', '\u00a0'), ('L', '\u2028'), ('P', '\u2029')].lookup c

def escapeWidth? (c : Char) : Option Nat := [('x', 2), ('u', 4), ('U', 8)].lookup c

def characterOf (n : Nat) : Except ReadError Char :=
  if n ≥ 0x80000000 then .error .escapeTooLarge
  else if n > 0x10FFFF then .error .noCharacter
  else if 0xD800 ≤ n ∧ n < 0xE000 then .ok '\uFFFD'
  else .ok (Char.ofNat n)

def hexNumber? (ds : List Char) : Option Nat :=
  (ds.mapM Json.hexDigit?).map (Numeral.ofDigits 16)

def escaped (i : Input) : Except ReadError (List Char × Input) :=
  match i.ahead with
  | [] => .error .malformed
  | c :: r =>
    match simpleEscape? c, escapeWidth? c with
    | some e, _ => .ok ([e], i.advance)
    | none, some width =>
      match if r.length < width then none else hexNumber? (r.take width) with
      | none => .error .malformed
      | some n => (characterOf n).map fun e => ([e], i.advanceBy (width + 1))
    | none, none =>
      if isBreak c then quotedBreaks [] (r.length + 1) i.takeBreak.2 else .error .malformed

def quotedSpace (i : Input) : Except ReadError (List Char × Input) :=
  let (spaces, i) := i.spanBy fun c => c = ' ' || c = '\t'
  if i.ahead.isEmpty then .error .malformed
  else
    match i.takeBreak with
    | ([], i) => .ok (spaces, i)
    | (first, i) =>
      (quotedBreaks [] (i.ahead.length + 1) i).map fun (breaks, i) => (foldBreaks first breaks, i)

def quotedText (double : Bool) (acc : List Char) :
    Nat → Input → Except ReadError (List Char × Input)
  | 0, _ => .error .malformed
  | fuel + 1, i =>
    match i.ahead with
    | [] => .error .malformed
    | '\'' :: r =>
      if double then quotedText double (acc ++ ['\'']) fuel i.advance
      else if r.head? = some '\'' then quotedText double (acc ++ ['\'']) fuel i.advance.advance
      else .ok (acc, i.advance)
    | '"' :: _ =>
      if double then .ok (acc, i.advance) else quotedText double (acc ++ ['"']) fuel i.advance
    | '\\' :: _ =>
      if double then
        match escaped i.advance with
        | .error e => .error e
        | .ok (cs, i) => quotedText double (acc ++ cs) fuel i
      else quotedText double (acc ++ ['\\']) fuel i.advance
    | c :: _ =>
      if isSeparator c then
        match quotedSpace i with
        | .error e => .error e
        | .ok (cs, i) => quotedText double (acc ++ cs) fuel i
      else
        let (cs, i) := i.spanBy fun c =>
          !(isSeparator c || c = '\'' || c = '"' || c = '\\')
        quotedText double (acc ++ cs) fuel i

inductive Chomping where
  | strip | clip | keep
deriving DecidableEq

def chomping? (c : Char) : Option Chomping :=
  if c = '+' then some .keep else if c = '-' then some .strip else none

def indentDigit? (c : Char) : Option Nat :=
  if '0' ≤ c && c ≤ '9' then some (c.toNat - '0'.toNat) else none

def blockHeader (i : Input) : Except ReadError (Chomping × Option Nat × Input) :=
  let (chomping, i) := match i.ahead.head?.bind chomping? with
    | some k => (some k, i.advance)
    | none => (none, i)
  let (digit, i) := match i.ahead.head?.bind indentDigit? with
    | some d => (some d, i.advance)
    | none => (none, i)
  let (chomping, i) := match chomping, digit, i.ahead.head?.bind chomping? with
    | none, some _, some k => (some k, i.advance)
    | k, _, _ => (k, i)
  if digit = some 0 ∨ endsField i.ahead = false then .error .malformed
  else
    let i := i.skipSpaces.skipComment
    if endsLine i.ahead then .ok (chomping.getD .clip, digit, i.takeBreak.2) else .error .malformed

def blockStart (breaks : List Char) (deepest : Nat) : Nat → Input → List Char × Nat × Input
  | 0, i => (breaks, deepest, i)
  | fuel + 1, i =>
    match i.ahead with
    | [] => (breaks, deepest, i)
    | c :: _ =>
      if c = ' ' then blockStart breaks (max deepest (i.column + 1)) fuel i.advance
      else if isBreak c then
        let (b, i) := i.takeBreak
        blockStart (breaks ++ b) deepest fuel i
      else (breaks, deepest, i)

def indentTo (column : Nat) : Nat → Input → Input
  | 0, i => i
  | fuel + 1, i =>
    if i.column < column ∧ i.ahead.head? = some ' ' then indentTo column fuel i.advance else i

def blockBreaks (indent : Nat) (breaks : List Char) : Nat → Input → List Char × Input
  | 0, i => (breaks, i)
  | fuel + 1, i =>
    let i := indentTo indent indent i
    match i.takeBreak with
    | ([], i) => (breaks, i)
    | (b, i) => blockBreaks indent (breaks ++ b) fuel i

def startsBlank (s : List Char) : Bool := s.head? = some ' ' || s.head? = some '\t'

/-- The lines of a block scalar: its text without the last break, that break, and the blank lines
after it. -/
def blockLines (folded : Bool) (indent : Nat) (acc breaks : List Char) :
    Nat → Input → List Char × List Char × List Char × Input
  | 0, i => (acc, [], breaks, i)
  | fuel + 1, i =>
    let acc := acc ++ breaks
    let leading := startsBlank i.ahead
    let (line, i) := i.spanBy (!isBreak ·)
    let acc := acc ++ line
    let (b, i) := i.takeBreak
    let (breaks, i) := blockBreaks indent [] (i.ahead.length + 1) i
    if i.column = indent ∧ i.ahead ≠ [] then
      let joint :=
        if folded && b = ['\n'] && !leading && !startsBlank i.ahead then
          if breaks.isEmpty then [' '] else []
        else b
      blockLines folded indent (acc ++ joint) breaks fuel i
    else (acc, b, breaks, i)

def blockText (folded : Bool) (outer : Int) (i : Input) : Except ReadError (List Char × Input) :=
  match blockHeader i with
  | .error e => .error e
  | .ok (chomping, digit, i) =>
    let least := (max 1 (outer + 1)).toNat
    let (indent, breaks, i) := match digit with
      | some d =>
        let indent := least + d - 1
        (indent, blockBreaks indent [] (i.ahead.length + 1) i)
      | none =>
        let (breaks, deepest, i) := blockStart [] 0 i.ahead.length i
        (max least deepest, breaks, i)
    let (text, last, breaks, i) :=
      if i.column = indent ∧ i.ahead ≠ [] then
        blockLines folded indent [] breaks (i.ahead.length + 1) i
      else ([], [], breaks, i)
    .ok (match chomping with
      | .strip => text
      | .clip => text ++ last
      | .keep => text ++ last ++ breaks, i)

end RouteDoc.Yaml
