import RouteDoc.Introspection
import RouteDoc.Proofs.Assoc
import RouteDoc.Proofs.Outcome
/-! The types that the parameters of a handler have. Those of a function are what its annotations stand for.
A class has the annotations in its own body and in those of the classes that it is based on, where the nearest
counts, and an object those of the nearest class that has any; of these the ones count that have the name of
a parameter, which the initializer or the call method has. -/
namespace RouteDoc.Introspection

abbrev StandFor (s : Scope) : List String → List HandlerType → Prop :=
  List.Forall₂ fun text t => s.typeOf text = .ok t

def annotated (params : List (String × Option String)) : List String := params.filterMap (·.2)

end RouteDoc.Introspection
