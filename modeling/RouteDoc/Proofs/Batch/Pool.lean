import Mathlib.Logic.Relation
import RouteDoc.Batch
import RouteDoc.Proofs.Extraction
/-! Workers on a batch. A worker takes the first route that waits and draws its samples one by one
from the synthesizer that all workers share; their steps interleave in any order. The answer is read
off the results in the order of the routes, and an error cancels what still waits. -/
namespace RouteDoc
variable {ε : Type}

inductive Slot (ε : Type) where
  | waiting
  | running (entity : Entity) (filled : List (Parameter Value)) (left : List Draft)
  | done (result : Except (RouteError ε) Descriptor)
  | cancelled

namespace Slot

def isWaiting : Slot ε → Bool
  | waiting => true
  | _ => false

def isRunning : Slot ε → Bool
  | running .. => true
  | _ => false

end Slot

structure Pool (ε : Type) where
  synthesizer : Synthesizer
  slots : List (Route × Slot ε)

namespace Pool

def start (s : Synthesizer) (routes : List Route) : Pool ε := ⟨s, routes.map fun r => (r, .waiting)⟩

def busy (slots : List (Route × Slot ε)) : Nat := slots.countP (·.2.isRunning)

def answer? : List (Route × Slot ε) → Option (Except (RouteError ε) (List Descriptor))
  | [] => some (.ok [])
  | (_, .done (.ok d)) :: rest => (answer? rest).map fun A => A.map (d :: ·)
  | (_, .done (.error e)) :: _ => some (.error e)
  | _ => none

end Pool

inductive Move (x : Extractor) (inspect : Inspector ε) (route : Route) :
    Synthesizer → Slot ε → Synthesizer → Slot ε → Prop where
  | refuse {s : Synthesizer} {e : ε} (h : inspect route = .error e) :
      Move x inspect route s .waiting s (.done (.error (.inspection e)))
  | start {s : Synthesizer} {entity : Entity} (h : inspect route = .ok entity) :
      Move x inspect route s .waiting s (.running entity [] (Plan.ofEntity x.room route entity).drafts)
  | draw {s : Synthesizer} {entity : Entity} {filled : List (Parameter Value)} {d : Draft}
      {left : List Draft} :
      Move x inspect route s (.running entity filled (d :: left)) (s.fill d).2
        (.running entity (filled ++ [(s.fill d).1]) left)
  | finish {s : Synthesizer} {entity : Entity} {filled : List (Parameter Value)} :
      Move x inspect route s (.running entity filled []) s
        (.done ((x.conclude route entity filled).result.mapError .extraction))

namespace Pool
variable {x : Extractor} {inspect : Inspector ε} {workers : Nat}

/-- A step of one worker, or of the caller who has met an error and cancels a route. -/
inductive Step (x : Extractor) (inspect : Inspector ε) (workers : Nat) :
    Pool ε → Pool ε → Prop where
  | take {s t : Synthesizer} {a b : List (Route × Slot ε)} {route : Route} {slot : Slot ε}
      (hfree : busy (a ++ b) < workers) (hturn : ∀ e ∈ a, e.2.isWaiting = false)
      (h : Move x inspect route s .waiting t slot) :
      Step x inspect workers ⟨s, a ++ (route, .waiting) :: b⟩ ⟨t, a ++ (route, slot) :: b⟩
  | work {s t : Synthesizer} {a b : List (Route × Slot ε)} {route : Route} {entity : Entity}
      {filled : List (Parameter Value)} {left : List Draft} {slot : Slot ε}
      (h : Move x inspect route s (.running entity filled left) t slot) :
      Step x inspect workers ⟨s, a ++ (route, .running entity filled left) :: b⟩
        ⟨t, a ++ (route, slot) :: b⟩
  | cancel {s : Synthesizer} {a b : List (Route × Slot ε)} {route : Route} {e : RouteError ε}
      (h : answer? (a ++ (route, .waiting) :: b) = some (.error e)) :
      Step x inspect workers ⟨s, a ++ (route, .waiting) :: b⟩ ⟨s, a ++ (route, .cancelled) :: b⟩

/-- What is known of the answer stays when a route that is not done moves on. -/
theorem answer?_update {a b : List (Route × Slot ε)} {route : Route} {old slot : Slot ε}
    (hold : ∀ result, old ≠ .done result) {A : Except (RouteError ε) (List Descriptor)}
    (h : answer? (a ++ (route, old) :: b) = some A) :
    answer? (a ++ (route, slot) :: b) = some A := by
  induction a generalizing A with
  | nil =>
    cases old with
    | done result => exact absurd rfl (hold result)
    | waiting => cases h
    | running entity filled left => cases h
    | cancelled => cases h
  | cons e a ih =>
    obtain ⟨r, state⟩ := e
    cases state with
    | done result =>
      cases result with
      | error e => exact h
      | ok d =>
        obtain ⟨B, hB, rfl⟩ := Option.map_eq_some_iff.mp h
        exact Option.map_eq_some_iff.mpr ⟨B, ih hB, rfl⟩
    | waiting => cases h
    | running entity filled left => cases h
    | cancelled => cases h

theorem exists_undone_of_answer? {slots : List (Route × Slot ε)} (h : answer? slots = none) :
    ∃ e ∈ slots, ∀ result, e.2 ≠ .done result := by
  induction slots with
  | nil => cases h
  | cons e slots ih =>
    obtain ⟨r, state⟩ := e
    cases state with
    | done result =>
      cases result with
      | error e => cases h
      | ok d =>
        obtain ⟨e, he, hundone⟩ := ih (Option.map_eq_none_iff.mp h)
        exact ⟨e, List.mem_cons_of_mem _ he, hundone⟩
    | waiting => exact ⟨_, List.mem_cons_self, by simp⟩
    | running entity filled left => exact ⟨_, List.mem_cons_self, by simp⟩
    | cancelled => exact ⟨_, List.mem_cons_self, by simp⟩

end Pool

inductive Settled (x : Extractor) (inspect : Inspector ε) (route : Route) :
    Except (RouteError ε) Descriptor → Prop where
  | refused {e : ε} (h : inspect route = .error e) :
      Settled x inspect route (.error (.inspection e))
  | concluded {entity : Entity} {ps : List (Parameter Value)} (h : inspect route = .ok entity)
      (hps : List.Forall₂ Fills (Plan.ofEntity x.room route entity).drafts ps) :
      Settled x inspect route ((x.conclude route entity ps).result.mapError .extraction)

def Slot.Sound (x : Extractor) (inspect : Inspector ε) (route : Route) : Slot ε → Prop
  | running entity filled left => inspect route = .ok entity ∧
      ∃ drawn, (Plan.ofEntity x.room route entity).drafts = drawn ++ left ∧ List.Forall₂ Fills drawn filled
  | done result => Settled x inspect route result
  | _ => True

theorem Move.sound {x : Extractor} {inspect : Inspector ε} {route : Route} {s t : Synthesizer}
    {old slot : Slot ε} (h : Move x inspect route s old t slot) (hold : old.Sound x inspect route) :
    slot.Sound x inspect route := by
  cases h with
  | refuse he => exact .refused he
  | start hentity => exact ⟨hentity, [], rfl, .nil⟩
  | @draw entity filled d left =>
    obtain ⟨hentity, drawn, hdrafts, hfills⟩ := hold
    refine ⟨hentity, drawn ++ [d], by simp [hdrafts], ?_⟩
    exact List.rel_append hfills (.cons (s.fill_filledBy d).toFills .nil)
  | finish =>
    obtain ⟨hentity, drawn, hdrafts, hfills⟩ := hold
    rw [List.append_nil] at hdrafts
    exact .concluded hentity (hdrafts ▸ hfills)

namespace Pool
variable {x : Extractor} {inspect : Inspector ε} {workers : Nat}

/-- The routes keep their places, every slot is sound, and nothing is cancelled without an error. -/
structure Consistent (x : Extractor) (inspect : Inspector ε) (routes : List Route) (p : Pool ε) :
    Prop where
  routes : p.slots.map (·.1) = routes
  sound : ∀ e ∈ p.slots, e.2.Sound x inspect e.1
  cancelled : ∀ e ∈ p.slots, e.2 = .cancelled → ∃ err, answer? p.slots = some (.error err)

theorem start_consistent (s : Synthesizer) (routes : List Route) :
    (start s routes : Pool ε).Consistent x inspect routes where
  routes := by simp [start, Function.comp_def]
  sound e he := by
    obtain ⟨r, -, rfl⟩ := List.mem_map.mp he
    trivial
  cancelled e he hcancelled := by
    obtain ⟨r, -, rfl⟩ := List.mem_map.mp he
    cases hcancelled

/-- A slot that is not done may change into a sound one, into a cancelled one only at an error. -/
theorem Consistent.update {routes : List Route} {s t : Synthesizer} {a b : List (Route × Slot ε)}
    {route : Route} {old slot : Slot ε}
    (h : Consistent x inspect routes ⟨s, a ++ (route, old) :: b⟩)
    (hold : ∀ result, old ≠ .done result) (hslot : slot.Sound x inspect route)
    (hcancel : slot = .cancelled → ∃ err, answer? (a ++ (route, old) :: b) = some (.error err)) :
    Consistent x inspect routes ⟨t, a ++ (route, slot) :: b⟩ where
  routes := by
    rw [← h.routes]
    simp
  sound e he := by
    rcases List.mem_append.mp he with ha | hb
    · exact h.sound e (List.mem_append_left _ ha)
    · rcases List.mem_cons.mp hb with rfl | hb
      · exact hslot
      · exact h.sound e (List.mem_append_right _ (List.mem_cons_of_mem _ hb))
  cancelled e he hcancelled := by
    have herror : ∃ err, answer? (a ++ (route, old) :: b) = some (.error err) := by
      rcases List.mem_append.mp he with ha | hb
      · exact h.cancelled e (List.mem_append_left _ ha) hcancelled
      · rcases List.mem_cons.mp hb with rfl | hb
        · exact hcancel hcancelled
        · exact h.cancelled e (List.mem_append_right _ (List.mem_cons_of_mem _ hb)) hcancelled
    obtain ⟨err, herr⟩ := herror
    exact ⟨err, answer?_update hold herr⟩

theorem Step.consistent {routes : List Route} {p q : Pool ε} (h : Step x inspect workers p q)
    (hp : p.Consistent x inspect routes) : q.Consistent x inspect routes := by
  have hnever {route : Route} {s t : Synthesizer} {old slot : Slot ε}
      (hmove : Move x inspect route s old t slot) : slot ≠ .cancelled := by
    cases hmove <;> simp
  cases h with
  | take hfree hturn hmove =>
    exact hp.update (by simp) (hmove.sound trivial) fun hc => absurd hc (hnever hmove)
  | @work s t a b route entity filled left slot hmove =>
    have hold := hp.sound (route, .running entity filled left) (by simp)
    exact hp.update (by simp) (hmove.sound hold) fun hc => absurd hc (hnever hmove)
  | cancel herr => exact hp.update (by simp) trivial fun _ => ⟨_, herr⟩

theorem consistent_of_run {s : Synthesizer} {routes : List Route} {p : Pool ε}
    (h : Relation.ReflTransGen (Step x inspect workers) (start s routes) p) :
    p.Consistent x inspect routes := by
  induction h with
  | refl => exact start_consistent s routes
  | tail _ hstep ih => exact hstep.consistent ih

def weight (room : Nat) (inspect : Inspector ε) (e : Route × Slot ε) : Nat :=
  match e.2 with
  | .waiting =>
    match inspect e.1 with
    | .error _ => 1
    | .ok entity => (Plan.ofEntity room e.1 entity).drafts.length + 2
  | .running _ _ left => left.length + 1
  | _ => 0

def total (room : Nat) (inspect : Inspector ε) : List (Route × Slot ε) → Nat
  | [] => 0
  | e :: slots => weight room inspect e + total room inspect slots

theorem total_update {room : Nat} {e f : Route × Slot ε}
    (h : weight room inspect f < weight room inspect e) (a b : List (Route × Slot ε)) :
    total room inspect (a ++ f :: b) < total room inspect (a ++ e :: b) := by
  induction a with
  | nil =>
    simp only [List.nil_append, total]
    omega
  | cons g a ih =>
    simp only [List.cons_append, total]
    omega

theorem weight_lt_of_move {route : Route} {s t : Synthesizer} {old slot : Slot ε}
    (h : Move x inspect route s old t slot) :
    weight x.room inspect (route, slot) < weight x.room inspect (route, old) := by
  cases h with
  | refuse he => simp [weight, he]
  | start hentity => simp [weight, hentity]
  | draw => simp [weight]
  | finish => simp [weight]

theorem Step.total_lt {p q : Pool ε} (h : Step x inspect workers p q) :
    total x.room inspect q.slots < total x.room inspect p.slots := by
  cases h with
  | take hfree hturn hmove => exact total_update (weight_lt_of_move hmove) _ _
  | work hmove => exact total_update (weight_lt_of_move hmove) _ _
  | @cancel s a b route e herr =>
    apply total_update
    simp only [weight]
    cases inspect route <;> simp

theorem wellFounded_step :
    WellFounded fun q p : Pool ε => Step x inspect workers p q :=
  Subrelation.wf (fun h => h.total_lt) (measure fun p : Pool ε => total x.room inspect p.slots).wf

theorem exists_step_of_running {p : Pool ε} {e : Route × Slot ε} (he : e ∈ p.slots)
    (hrunning : e.2.isRunning = true) : ∃ q, Step x inspect workers p q := by
  obtain ⟨s, slots⟩ := p
  obtain ⟨route, state⟩ := e
  obtain ⟨a, b, rfl⟩ := List.append_of_mem he
  cases state with
  | running entity filled left =>
    cases left with
    | nil => exact ⟨_, .work .finish⟩
    | cons d left => exact ⟨_, .work .draw⟩
  | waiting => cases hrunning
  | done result => cases hrunning
  | cancelled => cases hrunning

theorem exists_step_of_waiting {p : Pool ε} (hworkers : 1 ≤ workers) {e : Route × Slot ε}
    (he : e ∈ p.slots) (hwaiting : e.2.isWaiting = true)
    (hidle : ∀ f ∈ p.slots, f.2.isRunning = false) : ∃ q, Step x inspect workers p q := by
  obtain ⟨s, slots⟩ := p
  have hfind : (slots.find? (·.2.isWaiting)).isSome = true :=
    List.find?_isSome.mpr ⟨e, he, hwaiting⟩
  obtain ⟨⟨route, state⟩, hfirst⟩ := Option.isSome_iff_exists.mp hfind
  obtain ⟨hstate, a, b, rfl, hturn⟩ := List.find?_eq_some_iff_append.mp hfirst
  have hturn' : ∀ f ∈ a, f.2.isWaiting = false := fun f hf => by simpa using hturn f hf
  have hfree : busy (a ++ b) < workers := by
    have hzero : busy (a ++ b) = 0 := by
      rw [busy, List.countP_eq_zero]
      intro f hf
      have hmem : f ∈ a ++ (route, state) :: b := by
        rcases List.mem_append.mp hf with ha | hb
        · exact List.mem_append_left _ ha
        · exact List.mem_append_right _ (List.mem_cons_of_mem _ hb)
      simp [hidle f hmem]
    omega
  cases state with
  | waiting =>
    cases hi : inspect route with
    | error err => exact ⟨_, .take hfree hturn' (.refuse hi)⟩
    | ok entity => exact ⟨_, .take hfree hturn' (.start hi)⟩
  | running entity filled left => cases hstate
  | done result => cases hstate
  | cancelled => cases hstate

/-- While there is no answer some worker can go on. -/
theorem exists_step {routes : List Route} {p : Pool ε} (hp : p.Consistent x inspect routes)
    (hworkers : 1 ≤ workers) (hanswer : answer? p.slots = none) :
    ∃ q, Step x inspect workers p q := by
  by_cases hrunning : ∃ e ∈ p.slots, e.2.isRunning = true
  · obtain ⟨e, he, hrun⟩ := hrunning
    exact exists_step_of_running he hrun
  · have hidle : ∀ e ∈ p.slots, e.2.isRunning = false := by
      intro e he
      cases hr : e.2.isRunning with
      | false => rfl
      | true => exact absurd ⟨e, he, hr⟩ hrunning
    obtain ⟨⟨route, state⟩, he, hundone⟩ := exists_undone_of_answer? hanswer
    cases state with
    | waiting => exact exists_step_of_waiting hworkers he rfl hidle
    | running entity filled left => cases hidle _ he
    | done result => exact absurd rfl (hundone result)
    | cancelled =>
      obtain ⟨err, herr⟩ := hp.cancelled _ he rfl
      cases hanswer.symm.trans herr

end Pool
end RouteDoc
