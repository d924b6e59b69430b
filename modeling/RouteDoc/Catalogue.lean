import RouteDoc.Raised
import RouteDoc.Value
/-! Catalogues of modules: the functions, classes and values that handlers and form requests are
looked up among. A class is found with the module that it stands in, for its base and the types that
its functions name stand there too. -/
namespace RouteDoc

/-- What a class tells of itself and its objects beside its members: the annotations in its own body, and
the mapping that the conversion of an object into rules gives. -/
structure Traits where
  annotations : List (String × String) := []
  mapping : Except Raised (List (Value × Value)) := .error (.typeError "object is not iterable")

mutual
inductive Member where
  | function (doc : Option String) (params : List (String × Option String)) (ending : Ending)
  | classDef (doc base : Option String) (traits : Traits) (members : List (String × Member))
  | data (p : Product)
  /-- A callable whose signature cannot be read. -/
  | builtin

inductive Product where
  | value (v : Value)
  | object (className : String) (traits : Traits) (members : List (String × Member))

inductive Ending where
  | returns (p : Product)
  | raises (e : Raised)
end

instance : Inhabited Member := ⟨.builtin⟩
instance : Inhabited Product := ⟨.value .null⟩

inductive Meaning where
  | path (path : String)
  | foreign (name : String)
  | raises (e : Raised)

structure Module where
  name : String
  doc : Option String := none
  members : List (String × Member)
  failure : Option Raised := none
  expressions : List (String × Meaning) := []

abbrev Catalogue := List Module

structure Class where
  scope : Module
  path : List String
  doc : Option String := none
  base : Option String := none
  traits : Traits := {}
  members : List (String × Member)

namespace Class

def name (c : Class) : String := c.path.getLastD ""
def qualifiedName (c : Class) : String := ".".intercalate c.path

end Class

inductive Item where
  | module (m : Module)
  | function (scope : Module) (path : List String) (doc : Option String)
      (params : List (String × Option String)) (ending : Ending)
  | class (c : Class)
  | object (c : Class)
  | value (v : Value)
  | builtin

namespace Item

def ofProduct (scope : Module) : Product → Item
  | .value v => .value v
  | .object name traits members => .object { scope, path := [name], traits, members }

def ofMember (scope : Module) (path : List String) : Member → Item
  | .function doc params ending => .function scope path doc params ending
  | .classDef doc base traits members => .class ⟨scope, path, doc, base, traits, members⟩
  | .data p => ofProduct scope p
  | .builtin => .builtin

def topClass? (m : Module) (name : String) : Option Class :=
  match Assoc.get? name m.members with
  | some (.classDef doc base traits members) => some ⟨m, [name], doc, base, traits, members⟩
  | _ => none

def baseClass? (c : Class) : Option Class := c.base.bind (topClass? c.scope)

def heritage (c : Class) : Nat := c.scope.members.length + 1

def classMember? (name : String) : Nat → Class → Option Item
  | 0, _ => none
  | depth + 1, c =>
    match Assoc.get? name c.members with
    | some m => some (ofMember c.scope (c.path ++ [name]) m)
    | none => (baseClass? c).bind (classMember? name depth)

def ofClass? (name : String) (c : Class) : Option Item := classMember? name (heritage c) c

def attribute? (name : String) : Item → Option Item
  | .module m => (Assoc.get? name m.members).map (ofMember m [name])
  | .class c | .object c => ofClass? name c
  | _ => none

def typeName : Item → String
  | .module _ => "module"
  | .function .. => "function"
  | .class _ | .builtin => "type"
  | .object c => c.name
  | .value v => v.typeName

def missingMessage (name : String) (i : Item) : String :=
  let subject := match i with
    | .module m => "module '" ++ m.name ++ "'"
    | .class c => "type object '" ++ c.name ++ "'"
    | .builtin => "type object 'dict'"
    | i => "'" ++ i.typeName ++ "' object"
  subject ++ " has no attribute '" ++ name ++ "'"

def isCallable : Item → Bool
  | .function .. | .class _ | .builtin => true
  | .object c => (ofClass? "__call__" c).isSome
  | .module _ | .value _ => false

def doc : Item → Option String
  | .module m => m.doc
  | .function _ _ doc _ _ => doc
  | .class c | .object c => c.doc
  | .value _ | .builtin => none

def missingArguments (path : List String) (params : List String) : String :=
  let names := params.map fun p => "'" ++ p ++ "'"
  let listed := match names.reverse with
    | [] => ""
    | [a] => a
    | [b, a] => a ++ " and " ++ b
    | last :: others => ", ".intercalate others.reverse ++ ", and " ++ last
  ".".intercalate path ++ "() missing " ++ toString params.length ++
    " required positional argument" ++ (if params.length = 1 then "" else "s") ++ ": " ++ listed

def notCallable (i : Item) : Raised := .typeError ("'" ++ i.typeName ++ "' object is not callable")

def callFunction (i : Item) : Except Raised Item :=
  match i with
  | .function scope path _ params ending =>
    if params.isEmpty then
      match ending with
      | .returns p => .ok (ofProduct scope p)
      | .raises e => .error e
    else .error (.typeError (missingArguments path (params.map (·.1))))
  | i => .error i.notCallable

def callLimit : Nat := 64

/-- The result of a call without arguments. A class makes an object, for which its initializer runs
and has to return nothing. -/
def callAt : Nat → Item → Except Raised Item
  | depth + 1, .class c =>
    match ofClass? "__init__" c with
    | none => .ok (.object c)
    | some init =>
      match callAt depth init with
      | .error e => .error e
      | .ok (.value .null) => .ok (.object c)
      | .ok i => .error (.typeError ("__init__() should return None, not '" ++ i.typeName ++ "'"))
  | depth + 1, .object c =>
    match ofClass? "__call__" c with
    | some f => callAt depth f
    | none => .error (notCallable (.object c))
  | _, .builtin => .ok (.value (.mapping []))
  | _, i => i.callFunction

def call (i : Item) : Except Raised Item := i.callAt callLimit

def access (name : String) (i : Item) : Except Raised Item :=
  match i.attribute? name with
  | some a => .ok a
  | none => .error (.ofKind "AttributeError" (i.missingMessage name))

def hasCallable (name : String) (i : Item) : Bool :=
  match i.attribute? name with
  | some a => a.isCallable
  | none => false

end Item

inductive ImportError where
  | noModule (name : String)
  | notPackage (name parent : String)
  | raised (e : Raised)
deriving DecidableEq, Repr

def ImportError.message : ImportError → String
  | .noModule name => "No module named " ++ Text.quoted name
  | .notPackage name parent =>
    "No module named " ++ Text.quoted name ++ "; " ++ Text.quoted parent ++ " is not a package"
  | .raised e => e.message

namespace Catalogue

def find? (ms : Catalogue) (name : String) : Option Module := List.find? (·.name == name) ms

def parentName (name : String) : String :=
  String.ofList (((name.toList.reverse.dropWhile (· ≠ '.')).drop 1).reverse)

def load (m : Module) : Except ImportError Module :=
  match m.failure with
  | some e => .error (.raised e)
  | none => .ok m

/-- Finds a module and imports it, its parents first. One that is missing is reported by the first of its
parents that is missing, and a parent that is found has no modules inside; a module that is found needs
no parent. -/
def importAt (ms : Catalogue) : Nat → String → Except ImportError Module
  | 0, name => .error (.noModule name)
  | depth + 1, name =>
    let parent := parentName name
    let above := if parent = "" then .error (.noModule name) else importAt ms depth parent
    match above, ms.find? name with
    | .error (.raised e), _ => .error (.raised e)
    | _, some m => load m
    | .error e, none => .error e
    | .ok _, none => .error (.notPackage name parent)

def importModule (ms : Catalogue) (name : String) : Except ImportError Module :=
  ms.importAt (name.length + 1) name

end Catalogue
end RouteDoc
