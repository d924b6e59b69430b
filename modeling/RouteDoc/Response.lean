import RouteDoc.Cause
import RouteDoc.Config
import RouteDoc.Group
import RouteDoc.Json.Reader
import RouteDoc.Parameter
import RouteDoc.Route
import RouteDoc.Text.Digit
import RouteDoc.Text.Utf8
import RouteDoc.Warning
/-! Sample responses. A strategy looks for one in a route's tags; a chain asks strategies in order
until one gives a response that is not empty. A text in JSON is read with `room` for nested brackets. -/
namespace RouteDoc
open Text

inductive ResponseError where
  | notText (path : Path) (uri : String)
  | tooManyDigits
  | tooDeep
  | nameTooLong
deriving DecidableEq, Repr

def ResponseError.message? (word : Wording) : ResponseError → Option String
  | .notText path uri =>
    some ("Cannot read response file " ++ path.text ++ " for " ++ uri ++ ": " ++ word .notUtf8)
  | .tooManyDigits | .tooDeep | .nameTooLong => none

namespace Response

structure Query where
  route : Route
  tags : List Tag
  config : Config := {}
  body : List (String × Parameter Value) := []
  query : List (String × Parameter Value) := []

abbrev Strategy := Query → Outcome ResponseError Value

/-- Null, false, zero, the texts `""` and `"0"` and empty lists and mappings are no
response. -/
def isEmpty : Value → Bool
  | .text s => s == "" || s == "0"
  | .set _ | .bytes _ => false
  | v => !v.holds

/-- Cuts a status code, three digits of any script with a blank after them. -/
def dropStatus (s : List Char) : List Char :=
  match s with
  | a :: b :: c :: d :: r =>
    if isDigit a && isDigit b && isDigit c && isBlank d then trimStart r else s
  | _ => s

/-- The value that a text writes in JSON, else the text itself. -/
def decode (room : Nat) (s : String) : Except ResponseError Value :=
  match Json.read room s.toList with
  | .ok v => .ok v
  | .error .malformed => .ok (.text s)
  | .error .tooManyDigits => .error .tooManyDigits
  | .error .tooDeep => .error .tooDeep

def payloadText (content : String) : String := String.ofList (trim (dropStatus content.toList))

def fromTag (room : Nat) : Strategy := fun q =>
  match Comment.firstTag? "response" q.tags with
  | none => { result := .ok .null }
  | some content =>
    if payloadText content = "" then { result := .ok .null }
    else { result := decode room (payloadText content) }

def fromFile (room : Nat) (files : FileTree) (dir : Path) : Strategy := fun q =>
  match Comment.firstTag? "responseFile" q.tags with
  | none => { result := .ok .null }
  | some content =>
    let path := dir.join (.ofText (payloadText content))
    match files.readBytes path with
    | .error .nameTooLong => { result := .error .nameTooLong }
    | .error _ =>
      { result := .ok .null, warnings := [.responseFileMissing path q.route.uri] }
    | .ok bytes =>
      match ofFile? bytes with
      | none => { result := .error (.notText path q.route.uri) }
      | some s => { result := decode room s }

def none : Strategy := fun _ => { result := .ok .null }

def ask (q : Query) : List Strategy → Nat × Outcome ResponseError Value
  | [] => (0, { result := .ok .null })
  | s :: ss =>
    let o := s q
    match o.result with
    | .error _ => (1, o)
    | .ok v =>
      if isEmpty v then
        let (n, rest) := ask q ss
        (n + 1, { rest with warnings := o.warnings ++ rest.warnings })
      else (1, o)

def chain (ss : List Strategy) : Strategy := fun q => (ask q ss).2

/-- The tag first, then the file; without a directory files are sought where the program runs. -/
def standard (room : Nat) (files : FileTree) (dir : Option Path) : Strategy :=
  chain [fromTag room, fromFile room files (dir.getD ⟨"/", files.cwd⟩)]

end Response
end RouteDoc
