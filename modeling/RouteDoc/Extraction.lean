import RouteDoc.Descriptor
import RouteDoc.Parameter.Table
import RouteDoc.Response
/-! Extraction of a route's descriptor: the tables of its parameters in the order rules, body, query,
path, then the sample response. -/
namespace RouteDoc
open Text

structure Entity where
  docstring : Option String := none
  containerDocstring : Option String := none
  rules : List (String × Value) := []

def mergeParameters {α : Type} (base overrides : List (String × α)) : List (String × α) :=
  Assoc.insertAll base overrides

def isAuthenticated (tags : List Tag) : Bool := tags.any fun t => lower t.name == "authenticated"

def applyHeaders (headers : List (String × String)) (authenticated : Bool) :
    List (String × String) :=
  if authenticated then headers else headers.filter fun h => lower h.1 != "authorization"

inductive ExtractionError where
  | rule (e : Raised)
  | tag (e : TagError)
  | response (e : ResponseError)
deriving DecidableEq, Repr

structure Tables where
  path : List (String × Parameter Value)
  query : List (String × Parameter Value)
  body : List (String × Parameter Value)

namespace Synthesizer

/-- All tables of a route, or the error of the first that has one. Draws made before an error count. -/
def tables (s : Synthesizer) (room : Nat) (uri : Option String) (tags : List Tag)
    (rules : List (String × Value)) : Outcome ExtractionError Tables × Synthesizer :=
  match s.ruleTable room rules with
  | (.error e, s) => ({ result := .error (.rule e) }, s)
  | (.ok base, s) =>
    match s.table .body uri tags with
    | (⟨.error e, ws⟩, s) => (⟨.error (.tag e), ws⟩, s)
    | (⟨.ok body, ws⟩, s) =>
      match s.table .query uri tags with
      | (⟨.error e, ws'⟩, s) => (⟨.error (.tag e), ws ++ ws'⟩, s)
      | (⟨.ok query, ws'⟩, s) =>
        match s.table .path uri tags with
        | (⟨.error e, ws''⟩, s) => (⟨.error (.tag e), ws ++ ws' ++ ws''⟩, s)
        | (⟨.ok path, ws''⟩, s) =>
          (⟨.ok ⟨path, query, mergeParameters base body⟩, ws ++ ws' ++ ws''⟩, s)

end Synthesizer

/-- The default group is settled when the extractor is made, whatever the configuration says. The texts
of rules have `room` for nested values. -/
structure Extractor where
  config : Config
  resolver : Response.Strategy
  defaultGroup : String
  synthesizer : Synthesizer
  room : Nat := Value.usualRoom

namespace Extractor

def make (config : Config) (resolver : Response.Strategy) (room : Nat := Value.usualRoom) :
    Extractor :=
  ⟨config, resolver, config.defaultGroup, .seeded config.seed, room⟩

def assemble (x : Extractor) (route : Route) (entity : Entity) (comment : Comment) (t : Tables) :
    Outcome ExtractionError Descriptor :=
  let authenticated := isAuthenticated comment.tags
  let resolved := x.resolver ⟨route, comment.tags, x.config, t.body, t.query⟩
  { result := match resolved.result with
      | .error e => .error (.response e)
      | .ok response => .ok {
          id := Route.id route.uri route.methods
          group := groupOf entity.docstring entity.containerDocstring x.defaultGroup
          title := comment.summary
          description := comment.details
          methods := route.methods
          uri := route.uri
          pathParameters := t.path
          queryParameters := t.query
          bodyParameters := t.body
          authenticated
          response
          showResponse := !Response.isEmpty response
          headers := applyHeaders x.config.headers authenticated }
    warnings := resolved.warnings }

def extract (x : Extractor) (route : Route) (entity : Entity) :
    Outcome ExtractionError Descriptor × Extractor :=
  let comment := Comment.ofDocstring entity.docstring
  match x.synthesizer.tables x.room (some route.uri) comment.tags entity.rules with
  | (⟨.error e, ws⟩, s) => (⟨.error e, ws⟩, { x with synthesizer := s })
  | (⟨.ok t, ws⟩, s) =>
    let o := x.assemble route entity comment t
    ({ o with warnings := ws ++ o.warnings }, { x with synthesizer := s })

end Extractor
end RouteDoc
