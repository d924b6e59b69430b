import RouteDoc.Digest.Md5
import RouteDoc.Handler
import RouteDoc.Text.Case
/-! Routes: an address, the methods that it answers and the handler behind it. -/
namespace RouteDoc
open Text

structure Route where
  uri : String
  methods : List String
  handler : HandlerRef
deriving DecidableEq, Repr

namespace Route

def sortTexts (l : List String) : List String := l.mergeSort fun a b => decide (a ≤ b)

/-- Methods in upper case, each once and in order. HEAD goes without saying where GET stands. -/
def normalizeMethods (l : List String) : List String :=
  sortTexts ((l.map upper).eraseDups.filter (· != "HEAD"))

def make (uri : String) (methods : List String) (handler : HandlerRef) : Route :=
  ⟨uri, normalizeMethods methods, handler⟩

def identity (uri : String) (methods : List String) : String :=
  uri ++ ":" ++ String.join (sortTexts methods)

def id (uri : String) (methods : List String) : String := Md5.ofText (identity uri methods)

end Route
end RouteDoc
