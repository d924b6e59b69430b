import RouteDoc.Route
import RouteDoc.Schema
/-! Routes from records: an address, a list of methods, and a handler given as a text or as a record
of component and member. -/
namespace RouteDoc
open Schema

def HandlerRef.ofValue (location : List String) : Value → Checked HandlerRef
  | .text s =>
    match HandlerRef.parse? s with
    | some h => .ok h
    | none => fail location (.invalid (HandlerRef.invalidMessage s))
  | .mapping es =>
    let fields := es.filterMap fun (k, v) =>
      match k with
      | .text s => some (s, v)
      | _ => none
    (both (required "component" text location fields) (required "member" text location fields)).map
      fun (c, m) => ⟨c, m⟩
  | _ => fail location .notRecord

def Route.ofFields (fields : List (String × Value)) : Checked Route :=
  let uri := required "uri" text [] fields
  let methods := required "methods" textList [] fields
  let handler := required "handler" HandlerRef.ofValue [] fields
  (both uri (both methods handler)).map fun (u, ms, h) => make u ms h

end RouteDoc
