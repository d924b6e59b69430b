import RouteDoc.Extraction
/-! Batches: the descriptors of a list of routes, all of them in order or the error of the first
route that fails. -/
namespace RouteDoc

inductive RouteError (ε : Type) where
  | inspection (e : ε)
  | extraction (e : ExtractionError)
deriving DecidableEq, Repr

abbrev Inspector (ε : Type) := Route → Except ε Entity

namespace Extractor
variable {ε : Type}

def extractRoute (x : Extractor) (inspect : Inspector ε) (route : Route) :
    Outcome (RouteError ε) Descriptor × Extractor :=
  match inspect route with
  | .error e => ({ result := .error (.inspection e) }, x)
  | .ok entity =>
    let (o, x) := x.extract route entity
    (⟨o.result.mapError .extraction, o.warnings⟩, x)

def extractInTurn (x : Extractor) (inspect : Inspector ε) :
    List Route → Outcome (RouteError ε) (List Descriptor) × Extractor
  | [] => ({ result := .ok [] }, x)
  | r :: rs =>
    let (o, x) := x.extractRoute inspect r
    match o.result with
    | .error e => ({ result := .error e, warnings := o.warnings }, x)
    | .ok d =>
      let (rest, x) := extractInTurn x inspect rs
      (⟨rest.result.map (d :: ·), o.warnings ++ rest.warnings⟩, x)

def extractEach (x : Extractor) (inspect : Inspector ε) :
    List Route → List (Outcome (RouteError ε) Descriptor) × Extractor
  | [] => ([], x)
  | r :: rs =>
    let (o, x) := x.extractRoute inspect r
    let (os, x) := extractEach x inspect rs
    (o :: os, x)

def gather : List (Except ε Descriptor) → Except ε (List Descriptor)
  | [] => .ok []
  | .error e :: _ => .error e
  | .ok d :: os => (gather os).map (d :: ·)

/-- Several workers take all routes on; a single one stops at the first failure. -/
def extractAll (x : Extractor) (inspect : Inspector ε) (workers : Int) (routes : List Route) :
    Outcome (RouteError ε) (List Descriptor) × Extractor :=
  if workers ≤ 1 ∨ routes.length ≤ 1 then x.extractInTurn inspect routes
  else
    let (os, x) := x.extractEach inspect routes
    (⟨gather (os.map (·.result)), os.flatMap (·.warnings)⟩, x)

end Extractor
end RouteDoc
