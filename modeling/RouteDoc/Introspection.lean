import RouteDoc.Extraction
import RouteDoc.FileTree
import RouteDoc.Introspection.Hints
import RouteDoc.Schema
/-! Looking a handler up: its comments, the types of its parameters, and the rules of the first form
request among them. A form request is a class with a callable `validator` or `rules`. -/
namespace RouteDoc

inductive IntrospectionError where
  | cannotImport (handler : HandlerRef) (e : ImportError)
  | cannotLocate (handler : HandlerRef) (reason : String)
  | notCallable (handler : HandlerRef)
  | noSignature (handler : HandlerRef) (reason : String)
  | noTypes (handler : HandlerRef) (reason : String)
  | unreadableRules (className reason : String)
deriving DecidableEq, Repr

def IntrospectionError.message : IntrospectionError → String
  | .cannotImport h e =>
    "Cannot import module " ++ Text.quoted h.module ++ " for " ++ h.render ++ ": " ++ e.message
  | .cannotLocate h reason => "Cannot locate handler " ++ h.render ++ ": " ++ reason
  | .notCallable h => "Handler " ++ h.render ++ " is not callable"
  | .noSignature h reason => "Cannot read signature of " ++ h.render ++ ": " ++ reason
  | .noTypes h reason => "Cannot resolve parameter types of " ++ h.render ++ ": " ++ reason
  | .unreadableRules c reason => "Cannot read validation rules from " ++ c ++ ": " ++ reason

inductive InspectionFailure where
  | reported (e : IntrospectionError)
  | relativeModule
  | emptyModule
  | rulesNotPairs
  | rulesNotTwo
  | invalidRules (vs : List Violation)
  | raised (e : Raised)
deriving DecidableEq, Repr

structure Inspected where
  handler : HandlerRef
  docstring : Option String
  containerDocstring : Option String
  parameterTypes : List HandlerType
  rules : List (String × Value)

namespace Introspection

def locateIn (h : HandlerRef) : Item → List String → Except Raised (Item × Item)
  | container, [] => (container.access h.member).map fun m => (container, m)
  | container, p :: ps =>
    match container.access p with
    | .error e => .error e
    | .ok c => locateIn h c ps

def ownerParts (h : HandlerRef) : List String :=
  match h.owner? with
  | none => []
  | some o => (o.toList.splitOn '.').map String.ofList

def importFailure (h : HandlerRef) : ImportError → InspectionFailure
  | .raised e => if e.isA "ImportError" then .reported (.cannotImport h (.raised e)) else .raised e
  | e => .reported (.cannotImport h e)

def locate (ms : Catalogue) (h : HandlerRef) : Except InspectionFailure (Item × Item) :=
  if h.module.toList.head? = some '.' then .error .relativeModule
  else if h.module = "" then .error .emptyModule
  else
    match ms.importModule h.module with
    | .error e => .error (importFailure h e)
    | .ok m =>
      match locateIn h (.module m) (ownerParts h) with
      | .error e => .error (.reported (.cannotLocate h e.message))
      | .ok (container, member) =>
        if member.isCallable then .ok (container, member)
        else .error (.reported (.notCallable h))

def signatureFailure (h : HandlerRef) (e : Raised) : InspectionFailure :=
  if e.isA "TypeError" || e.isA "ValueError" then .reported (.noSignature h e.message) else .raised e

def typesFailure (h : HandlerRef) (e : Raised) : InspectionFailure :=
  if e.isA "Exception" then .reported (.noTypes h e.message) else .raised e

def parameterTypes (h : HandlerRef) (member : Item) : Except InspectionFailure (List HandlerType) :=
  match member.signature Item.callLimit with
  | .error e => .error (signatureFailure h e)
  | .ok names =>
    match member.hints with
    | .error e => .error (typesFailure h e)
    | .ok hints => .ok (member.typesOf names hints)

def isFormRequest : HandlerType → Bool
  | .item (.class c) => (Item.class c).hasCallable "validator" || (Item.class c).hasCallable "rules"
  | _ => false

def validatorRules (validator : Item) : Except Raised Item :=
  if validator.hasCallable "get_rules" then (validator.access "get_rules").bind Item.call
  else (validator.access "rules").bind fun rules =>
    if rules.isCallable then rules.call else .ok rules

def formRules (form : Item) : Except Raised Item :=
  if form.hasCallable "validator" then
    ((form.access "validator").bind Item.call).bind validatorRules
  else (form.access "rules").bind Item.call

def pairOf : Value → Except InspectionFailure (Value × Value)
  | .list [a, b] | .tuple [a, b] | .set [a, b] | .mapping [(a, _), (b, _)] => .ok (a, b)
  | .text s =>
    match s.toList with
    | [a, b] => .ok (.text (String.singleton a), .text (String.singleton b))
    | _ => .error .rulesNotTwo
  | .bytes [a, b] => .ok (.int a.toNat, .int b.toNat)
  | .list _ | .tuple _ | .set _ | .mapping _ | .bytes _ => .error .rulesNotTwo
  | _ => .error .rulesNotPairs

mutual
def isKey : Value → Bool
  | .list _ | .mapping _ | .set _ => false
  | .tuple xs => areKeys xs
  | _ => true

def areKeys : List Value → Bool
  | [] => true
  | x :: xs => isKey x && areKeys xs
end

def pairsOf : List Value → Except InspectionFailure (List (Value × Value))
  | [] => .ok []
  | x :: xs =>
    match pairOf x with
    | .error e => .error e
    | .ok (k, v) =>
      if isKey k then (pairsOf xs).map ((k, v) :: ·) else .error .rulesNotPairs

/-- Rules as a mapping: no rules for a value that does not hold, and pairs make a mapping. An object's class
has a say of its own. -/
def mappingOf : Item → Except InspectionFailure (List (Value × Value))
  | .value (.mapping es) => .ok es
  | .value (.list xs) | .value (.tuple xs) | .value (.set xs) => (pairsOf xs).map Assoc.ofList
  | .value (.text s) => if s = "" then .ok [] else .error .rulesNotTwo
  | .value v => if v.holds then .error .rulesNotPairs else .ok []
  | .object c =>
    match c.traits.mapping with
    | .ok es => .ok (Assoc.ofList es)
    | .error e => .error (.raised e)
  | _ => .error .rulesNotPairs

def rulesFailure (c : Class) (e : Raised) : InspectionFailure :=
  if e.isA "Exception" then .reported (.unreadableRules c.qualifiedName e.message) else .raised e

def readRules (c : Class) : Except InspectionFailure (List (Value × Value)) :=
  match (Item.class c).call.bind formRules with
  | .error e => .error (rulesFailure c e)
  | .ok rules => mappingOf rules

def firstRules : List HandlerType → Except InspectionFailure (List (Value × Value))
  | [] => .ok []
  | .item (.class c) :: ts => if isFormRequest (.item (.class c)) then readRules c else firstRules ts
  | _ :: ts => firstRules ts

def namedRules (es : List (Value × Value)) : Checked (List (String × Value)) :=
  match Schema.all (fun _ (e : Value × Value) =>
      (Schema.text ["rules", Schema.keyName e.1, "[key]"] e.1).map fun k => (k, e.2)) 0 es with
  | .ok l => .ok (Assoc.ofList l)
  | .error vs => .error vs

def inspect (ms : Catalogue) (h : HandlerRef) : Except InspectionFailure Inspected :=
  match locate ms h with
  | .error e => .error e
  | .ok (container, member) =>
    match parameterTypes h member with
    | .error e => .error e
    | .ok types =>
      match firstRules types with
      | .error e => .error e
      | .ok es =>
        match namedRules es with
        | .error vs => .error (.invalidRules vs)
        | .ok rules => .ok ⟨h, member.doc, container.doc, types, rules⟩

def entityOf (i : Inspected) : Entity := ⟨i.docstring, i.containerDocstring, i.rules⟩

/-- Import roots with directories put in front in their order, by their full paths; one that is known
stays where it is. -/
def extendRoots (files : FileTree) (dirs : List Path) (roots : List String) : List String :=
  (dirs.map fun d => (files.resolve d).text).foldr
    (fun d roots => if d ∈ roots then roots else d :: roots) roots

def addRoots (files : FileTree) (dirs : List Path) (roots : List Path) : List Path :=
  (extendRoots files dirs (roots.map Path.text)).map Path.ofText

end Introspection
end RouteDoc
