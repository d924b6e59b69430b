import RouteDoc.Proofs.Batch.Pool
/-! Batches do not depend on scheduling. Every order in which workers take routes and draw samples
leads to the answer of extracting the routes in turn: the same error, or for each route the same
descriptor up to synthesised samples. -/
namespace RouteDoc
open Relation
variable {ε : Type} {x : Extractor} {inspect : Inspector ε}

inductive BatchAnswer (x : Extractor) (inspect : Inspector ε) (workers : Int)
    (routes : List Route) : Except (RouteError ε) (List Descriptor) → Prop where
  | inTurn (h : workers ≤ 1 ∨ routes.length ≤ 1) :
      BatchAnswer x inspect workers routes (x.extractInTurn inspect routes).1.result
  | pooled {p : Pool ε} {A : Except (RouteError ε) (List Descriptor)}
      (h : ¬(workers ≤ 1 ∨ routes.length ≤ 1))
      (hrun : ReflTransGen (Pool.Step x inspect workers.toNat) (Pool.start x.synthesizer routes) p)
      (hanswer : Pool.answer? p.slots = some A) : BatchAnswer x inspect workers routes A

inductive Gathers (x : Extractor) (inspect : Inspector ε) :
    List Route → Except (RouteError ε) (List Descriptor) → Prop where
  | nil : Gathers x inspect [] (.ok [])
  | stop {route : Route} {routes : List Route} {e : RouteError ε}
      (h : Settled x inspect route (.error e)) : Gathers x inspect (route :: routes) (.error e)
  | next {route : Route} {routes : List Route} {d : Descriptor}
      {A : Except (RouteError ε) (List Descriptor)} (h : Settled x inspect route (.ok d))
      (hrest : Gathers x inspect routes A) : Gathers x inspect (route :: routes) (A.map (d :: ·))

theorem Pool.answer?_gathers {slots : List (Route × Slot ε)}
    (h : ∀ e ∈ slots, e.2.Sound x inspect e.1) {A : Except (RouteError ε) (List Descriptor)}
    (hA : answer? slots = some A) : Gathers x inspect (slots.map (·.1)) A := by
  induction slots generalizing A with
  | nil =>
    cases hA
    exact .nil
  | cons e slots ih =>
    obtain ⟨route, state⟩ := e
    cases state with
    | done result =>
      have hsettled : Settled x inspect route result := h _ List.mem_cons_self
      cases result with
      | error e =>
        cases hA
        exact .stop hsettled
      | ok d =>
        obtain ⟨B, hB, rfl⟩ := Option.map_eq_some_iff.mp hA
        exact .next hsettled (ih (fun e he => h e (List.mem_cons_of_mem _ he)) hB)
    | waiting => cases hA
    | running entity filled left => cases hA
    | cancelled => cases hA

namespace Extractor

def alone (x : Extractor) (inspect : Inspector ε) (s : Synthesizer) (route : Route) :
    Except (RouteError ε) Descriptor :=
  (extractRoute { x with synthesizer := s } inspect route).1.result

theorem alone_settled (s : Synthesizer) (route : Route) :
    Settled x inspect route (x.alone inspect s route) := by
  rw [alone, extractRoute]
  cases hi : inspect route with
  | error e => exact .refused hi
  | ok entity =>
    simp only [extract_eq]
    exact .concluded hi (s.fillAll_fills _)

theorem extractRoute_snd (x : Extractor) (inspect : Inspector ε) (s : Synthesizer) (route : Route) :
    ∃ t : Synthesizer, t.registered = s.registered ∧
      (extractRoute { x with synthesizer := s } inspect route).2 = { x with synthesizer := t } := by
  rw [extractRoute]
  cases inspect route with
  | error e => exact ⟨s, rfl, rfl⟩
  | ok entity =>
    simp only [extract_eq]
    exact ⟨_, s.fillAll_registered _, rfl⟩

theorem extractInTurn_gathers (s : Synthesizer) (routes : List Route) :
    Gathers x inspect routes
      (extractInTurn { x with synthesizer := s } inspect routes).1.result := by
  induction routes generalizing s with
  | nil => exact .nil
  | cons route routes ih =>
    have hsettled : Settled x inspect route (x.alone inspect s route) := alone_settled s route
    obtain ⟨t, -, ht⟩ := extractRoute_snd x inspect s route
    rw [alone] at hsettled
    rw [extractInTurn]
    simp only
    cases hresult : (extractRoute { x with synthesizer := s } inspect route).1.result with
    | error e => exact .stop (hresult ▸ hsettled)
    | ok d =>
      simp only [ht]
      exact .next (hresult ▸ hsettled) (ih t)

end Extractor

theorem BatchAnswer.gathers {workers : Int} {routes : List Route}
    {A : Except (RouteError ε) (List Descriptor)} (h : BatchAnswer x inspect workers routes A) :
    Gathers x inspect routes A := by
  cases h with
  | inTurn _ => exact Extractor.extractInTurn_gathers x.synthesizer routes
  | pooled _ hrun hanswer =>
    have hp := Pool.consistent_of_run hrun
    have hgathers := Pool.answer?_gathers hp.sound hanswer
    rwa [hp.routes] at hgathers

/-- Descriptors of one route: any extraction of it alone gives a variant of them. -/
structure OfRoute (x : Extractor) (inspect : Inspector ε) (route : Route)
    (d d' : Descriptor) : Prop where
  alone : ∀ s, ∃ d₀ entity, x.alone inspect s route = .ok d₀ ∧ inspect route = .ok entity ∧
    Descriptor.Variants (Plan.ofEntity x.room route entity) d₀ d
  variants : ∀ entity, inspect route = .ok entity →
    Descriptor.Variants (Plan.ofEntity x.room route entity) d d'

inductive OfRoutes (x : Extractor) (inspect : Inspector ε) :
    List Route → List Descriptor → List Descriptor → Prop where
  | nil : OfRoutes x inspect [] [] []
  | cons {route : Route} {routes : List Route} {d d' : Descriptor} {ds ds' : List Descriptor}
      (h : OfRoute x inspect route d d') (hrest : OfRoutes x inspect routes ds ds') :
      OfRoutes x inspect (route :: routes) (d :: ds) (d' :: ds')

/-- Answers that are the same up to synthesised samples. An error is that of the first route that
fails, and this route fails with it by itself under every synthesizer. -/
inductive SameAnswer (x : Extractor) (inspect : Inspector ε) (routes : List Route) :
    Except (RouteError ε) (List Descriptor) → Except (RouteError ε) (List Descriptor) → Prop where
  | described {ds ds' : List Descriptor} (h : OfRoutes x inspect routes ds ds') :
      SameAnswer x inspect routes (.ok ds) (.ok ds')
  | failed (before : List Route) (route : Route) (after : List Route) (e : RouteError ε)
      (hroutes : routes = before ++ route :: after)
      (hbefore : ∀ r ∈ before, ∀ s, ∃ d, x.alone inspect s r = .ok d)
      (hroute : ∀ s, x.alone inspect s route = .error e) :
      SameAnswer x inspect routes (.error e) (.error e)

theorem Settled.sameOutcome (hx : Response.Blind x.resolver) {route : Route}
    {r r' : Except (RouteError ε) Descriptor} (h : Settled x inspect route r)
    (h' : Settled x inspect route r') :
    SameOutcome (fun d d' => ∃ entity, inspect route = .ok entity ∧
      Descriptor.Variants (Plan.ofEntity x.room route entity) d d') r r' := by
  cases h with
  | refused he =>
    cases h' with
    | refused he' =>
      obtain rfl := Except.error.inj (he.symm.trans he')
      exact .error _
    | concluded hentity _ => cases he.symm.trans hentity
  | @concluded entity ps hentity hps =>
    cases h' with
    | refused he => cases he.symm.trans hentity
    | @concluded entity' ps' hentity' hps' =>
      obtain rfl := Except.ok.inj (hentity.symm.trans hentity')
      exact (Extractor.conclude_sameOutcome hx hps hps').mapError _ fun d d' hd =>
        ⟨entity, hentity, hd⟩

theorem Settled.alone_eq_error (hx : Response.Blind x.resolver) {route : Route} {e : RouteError ε}
    (h : Settled x inspect route (.error e)) (s : Synthesizer) :
    x.alone inspect s route = .error e := by
  have hsame := h.sameOutcome hx (Extractor.alone_settled s route)
  generalize x.alone inspect s route = r at hsame ⊢
  cases hsame
  rfl

theorem Settled.alone_eq_ok (hx : Response.Blind x.resolver) {route : Route} {d : Descriptor}
    (h : Settled x inspect route (.ok d)) (s : Synthesizer) :
    ∃ d₀ entity, x.alone inspect s route = .ok d₀ ∧ inspect route = .ok entity ∧
      Descriptor.Variants (Plan.ofEntity x.room route entity) d₀ d := by
  have hsame := (Extractor.alone_settled s route).sameOutcome hx h
  generalize x.alone inspect s route = r at hsame ⊢
  cases hsame with
  | ok hd =>
    obtain ⟨entity, hentity, hvariants⟩ := hd
    exact ⟨_, entity, rfl, hentity, hvariants⟩

/-- What is gathered from the same routes is the same answer. -/
theorem Gathers.sameAnswer (hx : Response.Blind x.resolver) {routes : List Route}
    {A B : Except (RouteError ε) (List Descriptor)} (h : Gathers x inspect routes A)
    (h' : Gathers x inspect routes B) : SameAnswer x inspect routes A B := by
  induction h generalizing B with
  | nil =>
    cases h'
    exact .described .nil
  | @stop route routes e hroute =>
    have hfails := hroute.alone_eq_error hx
    cases h' with
    | @stop _ _ e' hroute' =>
      obtain rfl := Except.error.inj ((hfails {}).symm.trans (hroute'.alone_eq_error hx {}))
      exact .failed [] route routes e rfl (by simp) hfails
    | next hroute' _ =>
      obtain ⟨d₀, _, hd₀, _⟩ := hroute'.alone_eq_ok hx {}
      cases (hfails {}).symm.trans hd₀
  | @next route routes d A hroute hrest ih =>
    have hsucceeds := hroute.alone_eq_ok hx
    cases h' with
    | stop hroute' =>
      obtain ⟨d₀, _, hd₀, _⟩ := hsucceeds {}
      cases (hroute'.alone_eq_error hx {}).symm.trans hd₀
    | @next _ _ d' B hroute' hrest' =>
      have hsame := hroute.sameOutcome hx hroute'
      cases ih hrest' with
      | described hds =>
        refine .described (.cons ⟨hsucceeds, ?_⟩ hds)
        intro entity hentity
        cases hsame with
        | ok hd =>
          obtain ⟨entity', hentity', hvariants⟩ := hd
          obtain rfl := Except.ok.inj (hentity.symm.trans hentity')
          exact hvariants
      | failed before failing after e hroutes hbefore hfailing =>
        refine .failed (route :: before) failing after e (by rw [hroutes]; rfl) ?_ hfailing
        refine List.forall_mem_cons.mpr ⟨fun s => ?_, hbefore⟩
        obtain ⟨d₀, _, hd₀, _⟩ := hsucceeds s
        exact ⟨d₀, hd₀⟩

namespace Pool
variable {workers : Nat}

theorem run_draws {s : Synthesizer} {a b : List (Route × Slot ε)} {route : Route} {entity : Entity}
    (filled : List (Parameter Value)) (left : List Draft) :
    ReflTransGen (Step x inspect workers)
      ⟨s, a ++ (route, .running entity filled left) :: b⟩
      ⟨(s.fillAll left).2,
        a ++ (route, .running entity (filled ++ (s.fillAll left).1) []) :: b⟩ := by
  induction left generalizing s filled with
  | nil =>
    rw [Synthesizer.fillAll, List.append_nil]
  | cons d left ih =>
    refine .head (.work .draw) ?_
    simpa [Synthesizer.fillAll] using ih (s := (s.fill d).2) (filled ++ [(s.fill d).1])

/-- From start to end a route can be extracted while all others stand still. -/
theorem run_route (hworkers : 1 ≤ workers) {s t : Synthesizer} {a b : List (Route × Slot ε)}
    (hidle : busy (a ++ b) = 0) (hturn : ∀ e ∈ a, e.2.isWaiting = false) {route : Route}
    (ht : (Extractor.extractRoute { x with synthesizer := s } inspect route).2.synthesizer = t) :
    ReflTransGen (Step x inspect workers) ⟨s, a ++ (route, .waiting) :: b⟩
      ⟨t, a ++ (route, .done (x.alone inspect s route)) :: b⟩ := by
  have hfree : busy (a ++ b) < workers := by omega
  rw [Extractor.alone]
  cases hi : inspect route with
  | error e =>
    simp only [Extractor.extractRoute, hi] at ht ⊢
    rw [← ht]
    exact .single (.take hfree hturn (.refuse hi))
  | ok entity =>
    simp only [Extractor.extractRoute, hi, Extractor.extract_eq] at ht ⊢
    rw [← ht]
    exact (ReflTransGen.head (.take hfree hturn (.start hi)) (run_draws [] _)).tail (.work .finish)

def finished (routes : List Route) (os : List (Outcome (RouteError ε) Descriptor)) :
    List (Route × Slot ε) :=
  List.zipWith (fun route o => (route, .done o.result)) routes os

theorem answer?_finished {routes : List Route} {os : List (Outcome (RouteError ε) Descriptor)}
    (h : os.length = routes.length) :
    answer? (finished routes os) = some (Extractor.gather (os.map (·.result))) := by
  induction routes generalizing os with
  | nil =>
    obtain rfl := List.length_eq_zero_iff.mp h
    rfl
  | cons route routes ih =>
    cases os with
    | nil => cases h
    | cons o os =>
      have htail := ih (Nat.succ.inj h)
      obtain ⟨result, warnings⟩ := o
      cases result with
      | error e => rfl
      | ok d =>
        rw [finished, List.zipWith_cons_cons, ← finished, answer?, htail]
        rfl

/-- All routes can be extracted one after the other. -/
theorem run_each (hworkers : 1 ≤ workers) {a : List (Route × Slot ε)}
    (ha : ∀ e ∈ a, e.2.isWaiting = false ∧ e.2.isRunning = false) (s : Synthesizer)
    (routes : List Route) :
    ∃ t, ReflTransGen (Step x inspect workers) ⟨s, a ++ routes.map fun r => (r, .waiting)⟩
      ⟨t, a ++ finished routes
        (Extractor.extractEach { x with synthesizer := s } inspect routes).1⟩ := by
  induction routes generalizing s a with
  | nil => exact ⟨s, .refl⟩
  | cons route routes ih =>
    obtain ⟨t, -, ht⟩ := Extractor.extractRoute_snd x inspect s route
    have hidle : busy (a ++ routes.map fun r => (r, .waiting)) = 0 := by
      rw [busy, List.countP_eq_zero]
      intro e he
      rcases List.mem_append.mp he with ha' | hb
      · simp [(ha e ha').2]
      · obtain ⟨r, -, rfl⟩ := List.mem_map.mp hb
        simp [Slot.isRunning]
    have hfirst := run_route hworkers hidle (fun e he => (ha e he).1) (congrArg (·.synthesizer) ht)
    have ha' : ∀ e ∈ a ++ [(route, .done (x.alone inspect s route))],
        e.2.isWaiting = false ∧ e.2.isRunning = false := by
      intro e he
      rcases List.mem_append.mp he with h | h
      · exact ha e h
      · rw [List.mem_singleton.mp h]
        exact ⟨rfl, rfl⟩
    obtain ⟨u, hrest⟩ := ih ha' t
    refine ⟨u, hfirst.trans ?_⟩
    simpa [finished, Extractor.extractEach, Extractor.alone, ht] using hrest

end Pool

namespace Extractor

theorem length_extractEach (s : Synthesizer) (routes : List Route) :
    (extractEach { x with synthesizer := s } inspect routes).1.length = routes.length := by
  induction routes generalizing s with
  | nil => rfl
  | cons route routes ih =>
    obtain ⟨t, -, ht⟩ := extractRoute_snd x inspect s route
    simp [extractEach, ht, ih t]

/-- The batch as it is extracted here is one run of the pool. -/
theorem extractAll_batchAnswer (workers : Int) (routes : List Route) :
    BatchAnswer x inspect workers routes (x.extractAll inspect workers routes).1.result := by
  rw [extractAll]
  split
  case isTrue h => exact .inTurn h
  case isFalse h =>
    obtain ⟨t, hrun⟩ := Pool.run_each (by omega : 1 ≤ workers.toNat) (a := [])
      (by simp) x.synthesizer routes
    exact .pooled h hrun (Pool.answer?_finished (length_extractEach x.synthesizer routes))

/-- Batch extraction is independent of scheduling. The runs of a pool end, and with an answer; every
answer, that of this extractor among them, is the same as that of the sequential run under any other
synthesizer. -/
theorem extractAll_independent (hx : Response.Blind x.resolver) {workers : Int}
    (hworkers : 1 ≤ workers) (routes : List Route) (s : Synthesizer) :
    WellFounded (fun q p : Pool ε => Pool.Step x inspect workers.toNat p q) ∧
      (∀ p, ReflTransGen (Pool.Step x inspect workers.toNat) (Pool.start x.synthesizer routes) p →
        (∀ q, ¬Pool.Step x inspect workers.toNat p q) → ∃ A, Pool.answer? p.slots = some A) ∧
      BatchAnswer x inspect workers routes (x.extractAll inspect workers routes).1.result ∧
      ∀ A, BatchAnswer x inspect workers routes A →
        SameAnswer x inspect routes A
          (extractAll { x with synthesizer := s } inspect 1 routes).1.result := by
  refine ⟨Pool.wellFounded_step, fun p hrun hend => ?_, extractAll_batchAnswer workers routes,
    fun A hA => ?_⟩
  · cases hanswer : Pool.answer? p.slots with
    | some A => exact ⟨A, rfl⟩
    | none =>
      obtain ⟨q, hstep⟩ := Pool.exists_step (Pool.consistent_of_run hrun)
        (by omega : 1 ≤ workers.toNat) hanswer
      exact absurd hstep (hend q)
  · have hturn : (extractAll { x with synthesizer := s } inspect 1 routes).1.result =
        (extractInTurn { x with synthesizer := s } inspect routes).1.result := by
      rw [extractAll, if_pos (.inl (by omega))]
    rw [hturn]
    exact hA.gathers.sameAnswer hx (extractInTurn_gathers s routes)

def pairInspect : Inspector String := fun route =>
  if route.uri = "/items" then
    .ok
      { docstring := some "Store\n\n@bodyParam size integer\n@queryParam page int required"
        rules := [("size", .text "required|integer")] }
  else .ok { docstring := some "Show\n\n@pathParam id integer Example: 4" }

def pairExtractor : Extractor := .make {} (Response.standard Value.usualRoom ⟨[], []⟩ none)

def pairRoutes : List Route :=
  [⟨"/items", ["POST"], ⟨"app", "store"⟩⟩, ⟨"/items/id", ["GET"], ⟨"app", "show"⟩⟩]

theorem extractAll_independent_pair :
    Response.Blind pairExtractor.resolver ∧ (1 : Int) ≤ 2 ∧
      SameAnswer pairExtractor pairInspect pairRoutes
        (pairExtractor.extractAll pairInspect 2 pairRoutes).1.result
        (extractAll { pairExtractor with synthesizer := .seeded (some 7) } pairInspect 1
          pairRoutes).1.result := by
  have hblind : Response.Blind pairExtractor.resolver := Response.standard_blind Value.usualRoom ⟨[], []⟩ none
  obtain ⟨-, -, hanswer, hsame⟩ := @extractAll_independent String pairExtractor pairInspect hblind 2
    (by decide) pairRoutes (.seeded (some 7))
  exact ⟨hblind, by decide, hsame _ hanswer⟩

end Extractor
end RouteDoc
