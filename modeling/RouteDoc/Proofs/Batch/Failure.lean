import RouteDoc.Proofs.Batch.Independence
/-! Which batches fail. A batch fails with the error of the first route that fails by itself, however
many workers there are, and otherwise gives a descriptor for each route in order. -/
namespace RouteDoc

def error? {ε α : Type} : Except ε α → Option ε
  | .error e => some e
  | .ok _ => none

@[simp] theorem error?_eq_some_iff {ε α : Type} {r : Except ε α} {e : ε} :
    error? r = some e ↔ r = .error e := by
  cases r <;> simp [error?]

namespace Extractor
variable {ε : Type} {x : Extractor} {inspect : Inspector ε}

def failure? (x : Extractor) (inspect : Inspector ε) (route : Route) : Option (RouteError ε) :=
  error? (x.alone inspect {} route)

/-- A route fails in the same way under every synthesizer. -/
theorem alone_eq_error_iff (hx : Response.Blind x.resolver) {s : Synthesizer} {route : Route}
    {e : RouteError ε} : x.alone inspect s route = .error e ↔ x.failure? inspect route = some e := by
  have hsettled (t : Synthesizer) : Settled x inspect route (x.alone inspect t route) :=
    alone_settled t route
  rw [failure?, error?_eq_some_iff]
  exact ⟨fun h => (h ▸ hsettled s).alone_eq_error hx {}, fun h => (h ▸ hsettled {}).alone_eq_error hx s⟩

theorem error?_alone (hx : Response.Blind x.resolver) (s : Synthesizer) (route : Route) :
    error? (x.alone inspect s route) = x.failure? inspect route := by
  apply Option.ext
  intro e
  rw [error?_eq_some_iff, alone_eq_error_iff hx]

theorem gather_eq_error_iff {rs : List (Except ε Descriptor)} {e : ε} :
    gather rs = .error e ↔ (rs.map error?).findSome? id = some e := by
  induction rs with
  | nil => simp [gather]
  | cons r rs ih =>
    cases r with
    | error f => simp [gather, error?]
    | ok d =>
      have hmap : gather (.ok d :: rs) = .error e ↔ gather rs = .error e := by
        rw [gather]
        cases gather rs <;> simp [Except.map]
      rw [hmap, ih]
      simp [error?]

/-- To stop at the first failure gives what all results give. -/
theorem extractInTurn_eq_gather (s : Synthesizer) (routes : List Route) :
    (extractInTurn { x with synthesizer := s } inspect routes).1.result =
      gather ((extractEach { x with synthesizer := s } inspect routes).1.map (·.result)) := by
  induction routes generalizing s with
  | nil => rfl
  | cons route routes ih =>
    obtain ⟨t, -, ht⟩ := extractRoute_snd x inspect s route
    rw [extractInTurn, extractEach]
    simp only [ht]
    rw [List.map_cons]
    cases (extractRoute { x with synthesizer := s } inspect route).1.result with
    | error e => rfl
    | ok d =>
      rw [gather, ← ih t]

theorem result_extractAll (workers : Int) (routes : List Route) :
    (x.extractAll inspect workers routes).1.result =
      gather ((x.extractEach inspect routes).1.map (·.result)) := by
  rw [extractAll]
  by_cases h : workers ≤ 1 ∨ routes.length ≤ 1
  · rw [if_pos h]
    exact extractInTurn_eq_gather x.synthesizer routes
  · rw [if_neg h]

/-- Each route is extracted as it would be by itself, at some count. -/
theorem extractEach_alone (s : Synthesizer) (routes : List Route) :
    List.Forall₂ (fun route r => ∃ t : Synthesizer, t.registered = s.registered ∧
      x.alone inspect t route = r) routes
      ((extractEach { x with synthesizer := s } inspect routes).1.map (·.result)) := by
  induction routes generalizing s with
  | nil => exact .nil
  | cons route routes ih =>
    obtain ⟨t, hrecipes, ht⟩ := extractRoute_snd x inspect s route
    have hrest := ih t
    rw [hrecipes] at hrest
    rw [extractEach]
    simp only [ht]
    exact .cons ⟨s, rfl, rfl⟩ hrest

theorem map_error?_of_alone (hx : Response.Blind x.resolver) {recipes : List (String × Recipe)}
    {routes : List Route} {rs : List (Except (RouteError ε) Descriptor)}
    (h : List.Forall₂ (fun route r => ∃ t : Synthesizer, t.registered = recipes ∧
      x.alone inspect t route = r) routes rs) :
    rs.map error? = routes.map (x.failure? inspect) := by
  induction h with
  | nil => rfl
  | @cons route r routes rs hroute _ ih =>
    obtain ⟨t, -, rfl⟩ := hroute
    rw [List.map_cons, List.map_cons, error?_alone hx, ih]

/-- A batch fails with the error of the first route that fails by itself. -/
theorem extractAll_eq_error_iff (hx : Response.Blind x.resolver) {workers : Int}
    {routes : List Route} {e : RouteError ε} :
    (x.extractAll inspect workers routes).1.result = .error e ↔
      routes.findSome? (x.failure? inspect) = some e := by
  rw [result_extractAll, gather_eq_error_iff,
    map_error?_of_alone hx (extractEach_alone x.synthesizer routes), List.findSome?_map]
  rfl

structure Describes (x : Extractor) (inspect : Inspector ε) (route : Route) (d : Descriptor) :
    Prop where
  alone : ∃ s : Synthesizer, s.registered = x.synthesizer.registered ∧ x.alone inspect s route = .ok d
  id : d.id = Route.id route.uri route.methods
  uri : d.uri = route.uri
  methods : d.methods = route.methods

end Extractor
end RouteDoc
