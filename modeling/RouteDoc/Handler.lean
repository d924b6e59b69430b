import RouteDoc.Text.Blank
import RouteDoc.Text.Quoted
/-! References to handlers. `module:Owner.member` and `module:Owner@member` name a member of an
owner in a module, `module:member` a member of the module itself. -/
namespace RouteDoc
open Text

namespace Text

def splitFirst? (sep : Char) : List Char → Option (List Char × List Char)
  | [] => none
  | c :: r =>
    if c = sep then some ([], r) else (splitFirst? sep r).map fun (a, b) => (c :: a, b)

def splitLast? (sep : Char) : List Char → Option (List Char × List Char)
  | [] => none
  | c :: r =>
    match splitLast? sep r with
    | some (a, b) => some (c :: a, b)
    | none => if c = sep then some ([], r) else none

end Text

/-- The component is a module, or a module, a colon and an owner. -/
structure HandlerRef where
  component : String
  member : String
deriving DecidableEq, Repr

namespace HandlerRef

/-- Owner and member in the text after the colon. An at sign decides, the first one; without one the
last full stop does. -/
def splitMember (s : List Char) : List Char × List Char :=
  match splitFirst? '@' s with
  | some p => p
  | none => (splitLast? '.' s).getD ([], s)

def ofChars? (s : List Char) : Option (List Char × List Char) :=
  match splitFirst? ':' (trim s) with
  | none => none
  | some (module, rest) =>
    if module.isEmpty || rest.isEmpty then none
    else
      let (owner, member) := splitMember rest
      if member.isEmpty then none
      else some (if owner.isEmpty then module else module ++ ':' :: owner, member)

def parse? (s : String) : Option HandlerRef :=
  (ofChars? s.toList).map fun (c, m) => ⟨String.ofList c, String.ofList m⟩

def invalidMessage (s : String) : String := "Invalid handler reference: " ++ quoted s

def module (h : HandlerRef) : String :=
  match splitFirst? ':' h.component.toList with
  | some (m, _) => String.ofList m
  | none => h.component

def owner? (h : HandlerRef) : Option String :=
  match splitFirst? ':' h.component.toList with
  | some (_, o) => if o.isEmpty then none else some (String.ofList o)
  | none => none

def render (h : HandlerRef) : String :=
  if h.owner?.isSome then h.component ++ "." ++ h.member else h.component ++ ":" ++ h.member

end HandlerRef
end RouteDoc
