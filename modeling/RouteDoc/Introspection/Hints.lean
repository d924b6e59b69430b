import RouteDoc.Catalogue
import RouteDoc.Text.Digit
import RouteDoc.Text.Word
import RouteDoc.Value.Shown
/-! What annotations stand for. An annotation is a path of names, looked up in a module, in a class and
among the names that are known everywhere, or an expression that the module has a meaning for. -/
namespace RouteDoc
open Text

inductive HandlerType where
  | item (i : Item)
  | foreign (name : String)

namespace HandlerType

def name : HandlerType → String
  | .item (.class c) => c.qualifiedName
  | .item (.function _ path _ _ _) => ".".intercalate path
  | .item i => i.typeName
  | .foreign n => n

def builtinNames : List String := [
  "int", "str", "bool", "float", "list", "dict", "set", "tuple", "bytes", "object", "type", "complex",
  "frozenset", "bytearray", "memoryview", "range", "slice", "property", "classmethod", "staticmethod",
  "super", "enumerate", "filter", "map", "reversed", "zip", "abs", "aiter", "all", "anext", "any",
  "ascii", "bin", "breakpoint", "callable", "chr", "compile", "copyright", "credits", "delattr", "dir",
  "divmod", "eval", "exec", "exit", "format", "getattr", "globals", "hasattr", "hash", "help", "hex",
  "id", "input", "isinstance", "issubclass", "iter", "len", "license", "locals", "max", "min", "next",
  "oct", "open", "ord", "pow", "print", "quit", "repr", "round", "setattr", "sorted", "sum", "vars",
  "Ellipsis", "NotImplemented", "ArithmeticError", "AssertionError", "AttributeError",
  "BaseException", "BaseExceptionGroup", "BlockingIOError", "BrokenPipeError", "BufferError",
  "BytesWarning", "ChildProcessError", "ConnectionAbortedError", "ConnectionError",
  "ConnectionRefusedError", "ConnectionResetError", "DeprecationWarning", "EOFError",
  "EncodingWarning", "EnvironmentError", "Exception", "ExceptionGroup", "FileExistsError",
  "FileNotFoundError", "FloatingPointError", "FutureWarning", "GeneratorExit", "IOError",
  "ImportError", "ImportWarning", "IndentationError", "IndexError", "InterruptedError",
  "IsADirectoryError", "KeyError", "KeyboardInterrupt", "LookupError", "MemoryError",
  "ModuleNotFoundError", "NameError", "NotADirectoryError", "NotImplementedError", "OSError",
  "OverflowError", "PendingDeprecationWarning", "PermissionError", "ProcessLookupError",
  "RecursionError", "ReferenceError", "ResourceWarning", "RuntimeError", "RuntimeWarning",
  "StopAsyncIteration", "StopIteration", "SyntaxError", "SyntaxWarning", "SystemError", "SystemExit",
  "TabError", "TimeoutError", "TypeError", "UnboundLocalError", "UnicodeDecodeError",
  "UnicodeEncodeError", "UnicodeError", "UnicodeTranslateError", "UnicodeWarning", "UserWarning",
  "ValueError", "Warning", "ZeroDivisionError"]

end HandlerType

structure Scope where
  module : Module
  class? : Option Class := none

namespace Scope

def item? (s : Scope) (name : String) : Option Item :=
  match Assoc.get? name s.module.members with
  | some m => some (.ofMember s.module [name] m)
  | none =>
    s.class?.bind fun c => (Assoc.get? name c.members).map (.ofMember c.scope (c.path ++ [name]))

def isIdentifier (s : List Char) : Bool :=
  match s with
  | [] => false
  | c :: _ => !isDigit c && s.all isWord

def common? (name : String) : Option HandlerType :=
  if name = "None" then some (.item (.value .null))
  else if name = "True" then some (.item (.value (.bool true)))
  else if name = "False" then some (.item (.value (.bool false)))
  else if name ∈ HandlerType.builtinNames then some (.foreign name)
  else none

def follow (i : Item) : List String → Except Raised Item
  | [] => .ok i
  | part :: parts =>
    match i.access part with
    | .error e => .error e
    | .ok i => follow i parts

def path (s : Scope) (text : String) : Except Raised HandlerType :=
  let parts := (text.toList.splitOn '.').map String.ofList
  if !parts.all fun p => isIdentifier p.toList then
    .error (.ofKind "SyntaxError" ("Forward reference must be an expression -- got " ++ quoted text))
  else
    match s.item? (parts.headD ""), common? (parts.headD ""), parts.tail with
    | some i, _, rest => (follow i rest).map .item
    | none, some t, [] => .ok t
    | none, some t, part :: _ =>
      .error (.ofKind "AttributeError" ("type object '" ++ t.name ++ "' has no attribute '" ++ part ++ "'"))
    | none, none, _ => .error (.ofKind "NameError" ("name '" ++ parts.headD "" ++ "' is not defined"))

def evaluate (s : Scope) (text : String) : Except Raised HandlerType :=
  match Assoc.get? text s.module.expressions with
  | some (.path p) => s.path p
  | some (.foreign name) => .ok (.foreign name)
  | some (.raises e) => .error e
  | none => s.path text

/-- The type that an annotation stands for. A text is an annotation again, nothing is the type of nothing,
and a tuple is no type. -/
def typeAt (s : Scope) : Nat → String → Except Raised HandlerType
  | 0, text => .ok (.foreign ("ForwardRef(" ++ quoted text ++ ")"))
  | depth + 1, text =>
    match s.evaluate text with
    | .ok (.item (.value .null)) => .ok (.foreign "NoneType")
    | .ok (.item (.value (.text t))) => s.typeAt depth t
    | .ok (.item (.value (.tuple xs))) =>
      match (Value.tuple xs).shownInside Value.usualRoom with
      | .ok shown => .error (.typeError ("Forward references must evaluate to types. Got " ++ shown ++ "."))
      | .error e => .error e
    | r => r

def typeOf (s : Scope) (text : String) : Except Raised HandlerType := s.typeAt Item.callLimit text

def types (s : Scope) : List (String × String) → Except Raised (List (String × HandlerType))
  | [] => .ok []
  | (name, text) :: rest =>
    match s.typeOf text with
    | .error e => .error e
    | .ok t => (s.types rest).map ((name, t) :: ·)

end Scope

namespace Item

def annotated (params : List (String × Option String)) : List (String × String) :=
  params.filterMap fun (name, type) => type.map fun t => (name, t)

/-- The annotations that stand in the bodies of a class and of the classes that it is based on. Those of
a class come last and take the place of others of their name. -/
def classHints : Nat → Class → Except Raised (List (String × HandlerType))
  | 0, _ => .ok []
  | depth + 1, c =>
    let inherited := match baseClass? c with
      | some b => classHints depth b
      | none => .ok []
    match inherited with
    | .error e => .error e
    | .ok inherited =>
      (Scope.types ⟨c.scope, some c⟩ c.traits.annotations).map (Assoc.insertAll inherited)

def nearestAnnotations : Nat → Class → List (String × String)
  | 0, _ => []
  | depth + 1, c =>
    if c.traits.annotations.isEmpty then
      match baseClass? c with
      | some b => nearestAnnotations depth b
      | none => []
    else c.traits.annotations

/-- The types that the parameters of an item have by their names. Those of an object are looked up without
its module. -/
def hints : Item → Except Raised (List (String × HandlerType))
  | .function scope _ _ params _ => Scope.types ⟨scope, none⟩ (annotated params)
  | .class c => classHints (heritage c) c
  | .object c =>
    match nearestAnnotations (heritage c) c with
    | [] => .error (.typeError ("<" ++ c.name ++ " object> is not a module, class, method, or function."))
    | annotations => Scope.types ⟨{ c.scope with members := [] }, none⟩ annotations
  | _ => .ok []

def typesOf (i : Item) (names : List String) (hints : List (String × HandlerType)) : List HandlerType :=
  match i with
  | .function .. => hints.map (·.2)
  | _ => names.filterMap fun n => Assoc.get? n hints

def bound : Item → List String → Except Raised (List String)
  | .function .., names => .ok names
  | _, _ :: names => .ok names
  | _, [] => .error (.valueError "invalid method signature")

def signature : Nat → Item → Except Raised (List String)
  | _, .function _ _ _ params _ => .ok (params.map (·.1))
  | depth + 1, .class c =>
    match ofClass? "__init__" c with
    | none => .ok []
    | some (.value .null) =>
      .error (.valueError ("no signature found for builtin type <class '" ++ c.scope.name ++ "." ++
        c.qualifiedName ++ "'>"))
    | some init => (signature depth init).bind (bound init)
  | depth + 1, .object c =>
    match ofClass? "__call__" c with
    | none | some (.value .null) =>
      .error (.valueError ("callable <" ++ c.name ++ " object> is not supported by signature"))
    | some call =>
      match signature depth call with
      | .ok names => bound call names
      | .error e =>
        .error (if e.isA "ValueError" then
          .valueError ("no signature found for <" ++ c.name ++ " object>") else e)
  | _, .value v =>
    match v.shownInside Value.usualRoom with
    | .ok shown => .error (.typeError (shown ++ " is not a callable object"))
    | .error e => .error e
  | _, _ => .error (.valueError "no signature found for builtin type <class 'dict'>")

end Item
end RouteDoc
