import RouteDoc.Text.Quoted
/-! Errors that programs raise: a handler's module when it is imported, its functions when they are
called, and values where a text of them is asked for. -/
namespace RouteDoc

/-- An error by the names of its class and of those that the class is based on, and its text. -/
structure Raised where
  classes : List String
  text : String
deriving DecidableEq, Repr

namespace Raised

def basesOf : String → List String
  | "BaseException" => []
  | "SystemExit" | "KeyboardInterrupt" | "GeneratorExit" => ["BaseException"]
  | "ModuleNotFoundError" => ["ImportError", "Exception", "BaseException"]
  | "IndexError" | "KeyError" => ["LookupError", "Exception", "BaseException"]
  | "RecursionError" | "NotImplementedError" => ["RuntimeError", "Exception", "BaseException"]
  | "UnicodeError" => ["ValueError", "Exception", "BaseException"]
  | "Exception" => ["BaseException"]
  | _ => ["Exception", "BaseException"]

def ofKind (kind text : String) : Raised := ⟨kind :: basesOf kind, text⟩

def kind (e : Raised) : String := e.classes.headD ""

def isA (e : Raised) (c : String) : Bool := e.classes.contains c

def message (e : Raised) : String := if e.isA "KeyError" then Text.quoted e.text else e.text

def typeError (text : String) : Raised := ofKind "TypeError" text

def valueError (text : String) : Raised := ofKind "ValueError" text

def tooManyDigits : Raised :=
  valueError "Exceeds the limit (4300 digits) for integer string conversion"

def tooDeep : Raised := ofKind "RecursionError" "maximum recursion depth exceeded"

end Raised
end RouteDoc
