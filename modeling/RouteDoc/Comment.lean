import RouteDoc.Text.Margin
import RouteDoc.Text.Word
/-! Documentation comments: a summary, details and tags. A comment is plain indented text or a block
whose lines carry an asterisk. A tag starts on a line of its own and runs to the next tag. -/
namespace RouteDoc
open Text

structure Tag where
  name : String
  content : String := ""
deriving DecidableEq, Repr

structure Comment where
  summary : String := ""
  details : String := ""
  tags : List Tag := []
deriving DecidableEq, Repr

namespace Comment

def isNameStart (c : Char) : Bool := isAsciiLetter c || c == '_'
def isNameChar (c : Char) : Bool := isWord c || c == '-'

/-- The name and the text of a tag line: an at sign, a name, and blanks before any text. -/
def tagLine? : List Char → Option (List Char × List Char)
  | '@' :: c :: r =>
    if isNameStart c then
      let name := c :: r.takeWhile isNameChar
      match r.dropWhile isNameChar with
      | [] => some (name, [])
      | b :: rest => if isBlank b then some (name, trimStart rest) else none
    else none
  | _ => none

def sections : List (List Char) → List (List Char) × List (List Char × List (List Char))
  | [] => ([], [])
  | l :: ls =>
    let (before, tags) := sections ls
    match tagLine? (trim l) with
    | some (name, rest) => ([], (name, rest :: before.map trim) :: tags)
    | none => (l :: before, tags)

def splitParagraphs : List (List Char) → List (List Char) × List (List (List Char))
  | [] => ([], [])
  | l :: ls =>
    let (open_, closed) := splitParagraphs ls
    if l.all isBlank then ([], if open_.isEmpty then closed else open_ :: closed)
    else (trimEnd l :: open_, closed)

def paragraphs (ls : List (List Char)) : List (List (List Char)) :=
  let (open_, closed) := splitParagraphs ls
  if open_.isEmpty then closed else open_ :: closed

def tagOf (t : List Char × List (List Char)) : Tag :=
  ⟨String.ofList t.1, String.ofList (trim (unlines t.2))⟩

def ofLines (ls : List (List Char)) : Comment :=
  let (before, tags) := sections ls
  let ps := paragraphs before
  { summary := String.ofList ([' '].intercalate ((ps.headD []).map trim))
    details := String.ofList (['\n', '\n'].intercalate (ps.tail.map unlines))
    tags := tags.map tagOf }

/-- Cuts the asterisk of a block comment's line and one blank after it. An asterisk before a slash
is no decoration. -/
def undecorate (line : List Char) : List Char :=
  match line.dropWhile isBlank with
  | '*' :: '/' :: _ => line
  | '*' :: c :: r => if isBlank c then r else c :: r
  | ['*'] => []
  | _ => line

def dropClosing (s : List Char) : List Char :=
  if ['*', '/'].isSuffixOf s then s.take (s.length - 2) else s

def body (s : List Char) : List Char :=
  match trim s with
  | '/' :: '*' :: '*' :: r => unlines ((lines (dropClosing r)).map undecorate)
  | t => t

def parse (s : String) : Comment := ofLines (lines (dedent (body s.toList)))

def ofDocstring : Option String → Comment
  | none => {}
  | some s => parse s

end Comment
end RouteDoc
