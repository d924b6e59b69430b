import RouteDoc.Parameter
import RouteDoc.Text.Blank
import RouteDoc.Value.Shown
/-! Validation rules: tokens between bars. The token `required` is the flag, the first canonical
type among the tokens is the type of the sample, and the other tokens together are the type shown. -/
namespace RouteDoc.Rule
open Text

/-- The text of a rule; a list of rules is joined by bars. -/
def text (room : Nat) : Value → Except Raised String
  | .list xs | .tuple xs => (xs.mapM (Value.shown room)).map ("|".intercalate ·)
  | v => v.shown room

def tokensOf (s : List Char) : List (List Char) :=
  (((s.splitOn '|').map trim).filter (!·.isEmpty)).eraseDups

def tokensOfText (s : String) : List String := (tokensOf s.toList).map String.ofList

def tokens (room : Nat) (rule : Value) : Except Raised (List String) :=
  (text room rule).map tokensOfText

def typeOf (tokens : List String) : ParamType :=
  (ParamType.all.find? fun t => tokens.contains t.name).getD .string

def draftOf (name : String) (ts : List String) : Draft :=
  let constraints := ts.filter (· != "required")
  { name
    type := "|".intercalate constraints
    required := ts.contains "required"
    sample := .wanted (typeOf constraints) }

def draft (room : Nat) (name : String) (rule : Value) : Except Raised Draft :=
  (tokens room rule).map (draftOf name)

def drafts (room : Nat) : List (String × Value) → List Draft × Option Raised
  | [] => ([], none)
  | (name, rule) :: rules =>
    match draft room name rule with
    | .error e => ([], some e)
    | .ok d =>
      let (ds, e) := drafts room rules
      (d :: ds, e)

end RouteDoc.Rule
