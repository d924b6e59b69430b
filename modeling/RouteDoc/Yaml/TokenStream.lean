import RouteDoc.Text.Utf8
import RouteDoc.Yaml.ScalarText
/-! The tokens of a text. Block structure becomes tokens of its own: a deeper column opens a
collection and a shallower one closes it. A mapping's key is known only when its colon comes, so the
place where a key may have begun is remembered and the key's token is put there later. -/
namespace RouteDoc.Yaml
open Input

/-- A place where a key may have begun: how many tokens were before it, and where it stands. -/
structure KeyPlace where
  tokens : Nat
  isRequired : Bool
  index : Nat
  line : Nat
  column : Nat

structure Scanner where
  input : Input
  /-- The tokens found, the last one first. -/
  tokens : List Token := []
  indent : Int := -1
  outerIndents : List Int := []
  flowLevel : Nat := 0
  keyAllowed : Bool := true
  keyPlaces : List (Nat × KeyPlace) := []
  ended : Bool := false

namespace Scanner

abbrev Step := Except ReadError Scanner

def inFlow (s : Scanner) : Bool := s.flowLevel > 0

def emit (t : Token) (s : Scanner) : Scanner := { s with tokens := t :: s.tokens }

def emitOver (t : Token) (length : Nat) (s : Scanner) : Scanner :=
  { s.emit t with input := s.input.advanceBy length }

def insert (t : Token) (before : Nat) (s : Scanner) : Scanner :=
  let n := s.tokens.length - before
  { s with tokens := s.tokens.take n ++ t :: s.tokens.drop n }

def skipBlank : Nat → Scanner → Scanner
  | 0, s => s
  | fuel + 1, s =>
    let i := s.input.skipSpaces.skipComment
    match i.takeBreak with
    | ([], i) => { s with input := i }
    | (_, i) => skipBlank fuel { s with input := i, keyAllowed := s.keyAllowed || !s.inFlow }

def skipMark (s : Scanner) : Scanner :=
  if s.input.index = 0 ∧ s.input.ahead.head? = some '\uFEFF' then
    { s with input := s.input.advance }
  else s

/-- A key does not run over a line's end, nor over 1024 characters. -/
def isStale (s : Scanner) (k : KeyPlace) : Bool :=
  k.line ≠ s.input.line || s.input.index - k.index > 1024

def dropStale (s : Scanner) : Step :=
  if s.keyPlaces.any fun p => s.isStale p.2 && p.2.isRequired then .error .malformed
  else .ok { s with keyPlaces := s.keyPlaces.filter fun p => !s.isStale p.2 }

def dropKeyPlace (s : Scanner) : Step :=
  match s.keyPlaces.lookup s.flowLevel with
  | some k =>
    if k.isRequired then .error .malformed
    else .ok { s with keyPlaces := s.keyPlaces.filter (·.1 != s.flowLevel) }
  | none => .ok s

/-- Remembers that a key may begin here. In a block at the indentation a key has to. -/
def saveKeyPlace (s : Scanner) : Step :=
  if s.keyAllowed then
    s.dropKeyPlace.map fun s =>
      let isRequired := !s.inFlow && s.indent == s.input.column
      let k := ⟨s.tokens.length, isRequired, s.input.index, s.input.line, s.input.column⟩
      { s with keyPlaces := (s.flowLevel, k) :: s.keyPlaces }
  else .ok s

def unwind (column : Int) (s : Scanner) : Scanner :=
  if s.inFlow then s else go s.outerIndents s
where
  go : List Int → Scanner → Scanner
    | [], s => s
    | outer :: rest, s =>
      if s.indent > column then
        go rest { s.emit .blockEnd with indent := outer, outerIndents := rest }
      else s

def deepen (column : Nat) (s : Scanner) : Bool × Scanner :=
  if s.indent < column then
    (true, { s with indent := column, outerIndents := s.indent :: s.outerIndents })
  else (false, s)

def openHere (t : Token) (s : Scanner) : Scanner :=
  match s.deepen s.input.column with
  | (true, s) => s.emit t
  | (false, s) => s

def endStream (s : Scanner) : Step :=
  (s.unwind (-1)).dropKeyPlace.map fun s =>
    { s.emit .streamEnd with keyAllowed := false, keyPlaces := [], ended := true }

def takeName (i : Input) : Option (String × Input) :=
  let (name, i) := i.spanBy isNameChar
  if name.isEmpty then none else some (String.ofList name, i)

def takeHandle (i : Input) : Option (String × Input) :=
  match i.ahead with
  | '!' :: ' ' :: _ => some ("!", i.advance)
  | '!' :: r =>
    let name := r.takeWhile isNameChar
    if (r.drop name.length).head? = some '!' then
      some ("!" ++ String.ofList name ++ "!", i.advanceBy (name.length + 2))
    else none
  | _ => none

def isUriChar (c : Char) : Bool :=
  isNameChar c || ";/?:@&=+$,.!~*'()[]%".toList.contains c

def uriBytes : List Char → Option (List UInt8 × List Char)
  | '%' :: a :: b :: r =>
    match Json.hexDigit? a, Json.hexDigit? b with
    | some m, some n => (uriBytes r).map fun (bs, r) => (UInt8.ofNat (16 * m + n) :: bs, r)
    | _, _ => none
  | '%' :: _ => none
  | r => some ([], r)

def unescapeUri : Nat → List Char → Option (List Char)
  | 0, _ => none
  | _ + 1, [] => some []
  | fuel + 1, '%' :: r =>
    match uriBytes ('%' :: r) with
    | none => none
    | some (bs, rest) =>
      match Text.decode? bs with
      | none => none
      | some s => (unescapeUri fuel rest).map (s.toList ++ ·)
  | fuel + 1, c :: r => (unescapeUri fuel r).map (c :: ·)

def takeUri (i : Input) : Option (String × Input) :=
  let (cs, i) := i.spanBy isUriChar
  if cs.isEmpty then none
  else (unescapeUri (cs.length + 1) cs).map fun s => (String.ofList s, i)

def directive (i : Input) : Option (Token × Input) :=
  (takeName i).bind fun (name, i) =>
    if !endsField i.ahead then none
    else if name = "YAML" then
      let (major, i) := i.skipSpaces.spanBy Json.isDigit
      if major.isEmpty || i.ahead.head? ≠ some '.' then none
      else
        let (minor, i) := i.advance.spanBy Json.isDigit
        if minor.isEmpty || !endsField i.ahead then none
        else some (.versionDirective (Json.value major), i)
    else if name = "TAG" then
      (takeHandle i.skipSpaces).bind fun (handle, i) =>
        if i.ahead.head? ≠ some ' ' then none
        else
          (takeUri i.skipSpaces).bind fun (start, i) =>
            if endsField i.ahead then some (.tagDirective handle start, i) else none
    else some (.otherDirective, (i.spanBy (!isBreak ·)).2)

def fetchDirective (s : Scanner) : Step :=
  (s.unwind (-1)).dropKeyPlace.bind fun s =>
    match directive s.input.advance with
    | none => .error .malformed
    | some (t, i) =>
      let i := i.skipSpaces.skipComment
      if endsLine i.ahead then
        .ok { s.emit t with keyAllowed := false, input := i.takeBreak.2 }
      else .error .malformed

def fetchMarker (t : Token) (s : Scanner) : Step :=
  (s.unwind (-1)).dropKeyPlace.map fun s => { s.emitOver t 3 with keyAllowed := false }

def openFlow (t : Token) (s : Scanner) : Step :=
  s.saveKeyPlace.map fun s =>
    { s.emitOver t 1 with flowLevel := s.flowLevel + 1, keyAllowed := true }

def closeFlow (t : Token) (s : Scanner) : Step :=
  s.dropKeyPlace.map fun s =>
    { s.emitOver t 1 with flowLevel := s.flowLevel - 1, keyAllowed := false }

def fetchFlowEntry (s : Scanner) : Step :=
  s.dropKeyPlace.map fun s => { s.emitOver .flowEntry 1 with keyAllowed := true }

def fetchBlockEntry (s : Scanner) : Step :=
  if !s.inFlow && !s.keyAllowed then .error .malformed
  else
    let s := if s.inFlow then s else s.openHere .blockSequenceStart
    s.dropKeyPlace.map fun s => { s.emitOver .blockEntry 1 with keyAllowed := true }

def fetchKey (s : Scanner) : Step :=
  if !s.inFlow && !s.keyAllowed then .error .malformed
  else
    let s := if s.inFlow then s else s.openHere .blockMappingStart
    s.dropKeyPlace.map fun s => { s.emitOver .key 1 with keyAllowed := !s.inFlow }

/-- A colon. It makes a key of what was remembered as one, else it belongs to a question mark. -/
def fetchValue (s : Scanner) : Step :=
  match s.keyPlaces.lookup s.flowLevel with
  | some k =>
    let s := { s with keyPlaces := s.keyPlaces.filter (·.1 != s.flowLevel) }
    let s := s.insert .key k.tokens
    let s :=
      if s.inFlow then s
      else
        match s.deepen k.column with
        | (true, s) => s.insert .blockMappingStart k.tokens
        | (false, s) => s
    .ok { s.emitOver .value 1 with keyAllowed := false }
  | none =>
    if !s.inFlow && !s.keyAllowed then .error .malformed
    else
      let s := if s.inFlow then s else s.openHere .blockMappingStart
      s.dropKeyPlace.map fun s => { s.emitOver .value 1 with keyAllowed := !s.inFlow }

def endsAnchor (s : List Char) : Bool :=
  endsWord s || (s.head?.map fun c => "?:,]\x7d%@\x60".toList.contains c).getD false

def fetchAnchor (make : String → Token) (s : Scanner) : Step :=
  s.saveKeyPlace.bind fun s =>
    match takeName s.input.advance with
    | none => .error .malformed
    | some (name, i) =>
      if endsAnchor i.ahead then .ok { s.emit (make name) with keyAllowed := false, input := i }
      else .error .malformed

def takeTag (i : Input) : Option (Token × Input) :=
  match i.ahead.drop 1 with
  | '<' :: _ =>
    (takeUri (i.advanceBy 2)).bind fun (suffix, i) =>
      if i.ahead.head? = some '>' then some (.tag none suffix, i.advance) else none
  | r =>
    if endsWord r then some (.tag none "!", i.advance)
    else
      let word := r.takeWhile fun c => !(c = ' ' || isBreak c)
      let handle := if word.contains '!' then takeHandle i else some ("!", i.advance)
      handle.bind fun (h, i) => (takeUri i).map fun (suffix, i) => (.tag (some h) suffix, i)

def fetchTag (s : Scanner) : Step :=
  s.saveKeyPlace.bind fun s =>
    match takeTag s.input with
    | none => .error .malformed
    | some (t, i) =>
      if endsField i.ahead then .ok { s.emit t with keyAllowed := false, input := i }
      else .error .malformed

def fetchBlockScalar (folded : Bool) (s : Scanner) : Step :=
  s.dropKeyPlace.bind fun s =>
    (blockText folded s.indent s.input.advance).map fun (text, i) =>
      { s.emit (.scalar (String.ofList text) false) with keyAllowed := true, input := i }

def fetchQuoted (double : Bool) (s : Scanner) : Step :=
  s.saveKeyPlace.bind fun s =>
    let i := s.input.advance
    (quotedText double [] (i.ahead.length + 1) i).map fun (text, i) =>
      { s.emit (.scalar (String.ofList text) false) with keyAllowed := false, input := i }

def fetchPlain (s : Scanner) : Step :=
  s.saveKeyPlace.map fun s =>
    let (text, atEnd, i) :=
      plainText s.inFlow (s.indent + 1) [] [] false (s.input.ahead.length + 1) s.input
    { s.emit (.scalar (String.ofList text) true) with keyAllowed := atEnd, input := i }

def startsPlain (inFlow : Bool) : List Char → Bool
  | [] => false
  | c :: r =>
    !(isSeparator c || "-?:,[]\x7b\x7d#&*!|>'\"%@\x60".toList.contains c) ||
      (!endsWord r && (c = '-' || (!inFlow && (c = '?' || c = ':'))))

def fetch (s : Scanner) : Step :=
  (skipBlank (s.input.ahead.length + 1) s.skipMark).dropStale.bind fun s =>
    let s := s.unwind s.input.column
    let i := s.input
    match i.ahead with
    | [] => s.endStream
    | c :: r =>
      let wordEnds := endsWord r
      if c = '%' && i.column = 0 then s.fetchDirective
      else if i.column = 0 && atMarker '-' i.ahead then s.fetchMarker .documentStart
      else if i.column = 0 && atMarker '.' i.ahead then s.fetchMarker .documentEnd
      else if c = '[' then s.openFlow .flowSequenceStart
      else if c = '{' then s.openFlow .flowMappingStart
      else if c = ']' then s.closeFlow .flowSequenceEnd
      else if c = '}' then s.closeFlow .flowMappingEnd
      else if c = ',' then s.fetchFlowEntry
      else if c = '-' && wordEnds then s.fetchBlockEntry
      else if c = '?' && (s.inFlow || wordEnds) then s.fetchKey
      else if c = ':' && (s.inFlow || wordEnds) then s.fetchValue
      else if c = '*' then s.fetchAnchor .alias
      else if c = '&' then s.fetchAnchor .anchor
      else if c = '!' then s.fetchTag
      else if c = '|' && !s.inFlow then s.fetchBlockScalar false
      else if c = '>' && !s.inFlow then s.fetchBlockScalar true
      else if c = '\'' then s.fetchQuoted false
      else if c = '"' then s.fetchQuoted true
      else if startsPlain s.inFlow i.ahead then s.fetchPlain
      else .error .malformed

/-- Tokens up to the end of the text or to an error. Every step takes a character, so as many steps
as characters and one for the end suffice. -/
def scan : Nat → Scanner → List Token × Option ReadError
  | 0, s => (s.tokens.reverse, some .malformed)
  | fuel + 1, s =>
    match s.fetch with
    | .error e => (s.tokens.reverse, some e)
    | .ok s => if s.ended then (s.tokens.reverse, none) else scan fuel s

end Scanner

def tokensOf (text : List Char) : List Token × Option ReadError :=
  if text.all isAllowed then Scanner.scan (text.length + 2) { input := { ahead := text } }
  else ([], some .malformed)

end RouteDoc.Yaml
