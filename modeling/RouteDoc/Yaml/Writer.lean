import RouteDoc.Data
import RouteDoc.Number.Shortest
import RouteDoc.Yaml.ScalarLayout
/-! Writing YAML in blocks: an item or entry a line, collections that are not empty indented by two,
but lists under a key not at all. -/
namespace RouteDoc.Yaml
open ScalarLayout

/-- As numbers are laid out elsewhere, but with a point before an exponent. -/
def numberLayout : Binary64.Layout := ⟨-4, 16, 'e', 2, true, ".inf", ".nan"⟩

def isSimpleKey (k : String) : Bool :=
  k != "" && k.length < 123 && !isMultiline k.toList

inductive Lead where
  | indicator
  | key (k : List Char)

def Lead.column (indent : Nat) : Lead → Nat
  | .indicator => indent + 2
  | .key k => indent + k.length + 2

def newline (indent : Nat) : List Char := '\n' :: blanks indent

def writeEntry (indent : Nat) (k : String) (after : Lead → List Char) : List Char :=
  if isSimpleKey k then
    let key := ScalarLayout.write true (indent + 2) indent k
    key ++ ':' :: after (.key key)
  else
    '?' :: ' ' :: ScalarLayout.write false (indent + 2) (indent + 2) k ++ newline indent ++
      ':' :: after .indicator

mutual
/-- A node after its lead, in a collection that is indented by `indent`. -/
def writeAfter (indent : Nat) (lead : Lead) : Data → List Char
  | .null => " null".toList
  | .bool b => (if b then " true" else " false").toList
  | .int n => ' ' :: (toString n).toList
  | .float x => ' ' :: (numberLayout.text x).toList
  | .text s => ' ' :: ScalarLayout.write false (indent + 2) (lead.column indent) s
  | .list [] => [' ', '[', ']']
  | .list (d :: ds) =>
    match lead with
    | .indicator => ' ' :: '-' :: writeAfter (indent + 2) .indicator d ++ writeItems (indent + 2) ds
    | .key _ => newline indent ++ '-' :: writeAfter indent .indicator d ++ writeItems indent ds
  | .mapping [] => [' ', '{', '}']
  | .mapping ((k, d) :: es) =>
    let inner := indent + 2
    let start := match lead with
      | .indicator => [' ']
      | .key _ => newline inner
    start ++ writeEntry inner k (fun lead => writeAfter inner lead d) ++ writeEntries inner es

def writeItems (indent : Nat) : List Data → List Char
  | [] => []
  | d :: ds => newline indent ++ '-' :: writeAfter indent .indicator d ++ writeItems indent ds

def writeEntries (indent : Nat) : List (String × Data) → List Char
  | [] => []
  | (k, d) :: es =>
    newline indent ++ writeEntry indent k (fun lead => writeAfter indent lead d) ++
      writeEntries indent es
end

def writeList : List Data → String
  | [] => "[]\n"
  | d :: ds => String.ofList ('-' :: writeAfter 0 .indicator d ++ writeItems 0 ds ++ ['\n'])

end RouteDoc.Yaml
