import Mathlib.Data.List.Forall2
import RouteDoc.Synthesizer
/-! Filling drafts changes nothing but samples, and of these only the ones that are wanted. -/
namespace RouteDoc

/-- A parameter fills a draft when it is the draft with some sample, the given one if there is
one. -/
structure Fills (d : Draft) (p : Parameter Value) : Prop where
  fields : p = { d with sample := p.sample }
  given : ∀ v, d.sample = .given v → p.sample = v

theorem Fills.name {d : Draft} {p : Parameter Value} (h : Fills d p) : p.name = d.name := by
  rw [h.fields]

theorem Fills.type {d : Draft} {p : Parameter Value} (h : Fills d p) : p.type = d.type := by
  rw [h.fields]

theorem names_of_fills {ds : List Draft} {ps : List (Parameter Value)}
    (h : List.Forall₂ Fills ds ps) : ps.map (·.name) = ds.map (·.name) := by
  induction h with
  | nil => rfl
  | cons hd _ ih => rw [List.map_cons, List.map_cons, hd.name, ih]

/-- A sample that is wanted is made by its type's recipe at some count. -/
structure FilledBy (s : Synthesizer) (d : Draft) (p : Parameter Value) : Prop
    extends Fills d p where
  wanted : ∀ t, d.sample = .wanted t → ∃ n, p.sample = (s.recipe t.name).value n

theorem FilledBy.congr {s t : Synthesizer} (h : s.recipe = t.recipe) {d : Draft}
    {p : Parameter Value} (hp : FilledBy s d p) : FilledBy t d p :=
  ⟨hp.toFills, fun u hu => h ▸ hp.wanted u hu⟩

namespace Synthesizer

def countingFrom (n : Int) : Synthesizer := { counter := n }

theorem fill_filledBy (s : Synthesizer) (d : Draft) : FilledBy s d (s.fill d).1 := by
  rw [fill]
  cases hd : d.sample with
  | given v =>
    exact ⟨⟨rfl, fun w hw => by simpa using hd.symm.trans hw⟩, fun t ht => by simp [hd] at ht⟩
  | wanted t =>
    refine ⟨⟨rfl, fun w hw => by simp [hd] at hw⟩, fun u hu => ⟨s.counter, ?_⟩⟩
    obtain rfl : t = u := by simpa using hd.symm.trans hu
    rfl

theorem synthesize_registered (s : Synthesizer) (type : String) :
    (s.synthesize type).2.registered = s.registered := by
  rw [synthesize]
  cases (s.recipe type).draws <;> rfl

theorem fill_registered (s : Synthesizer) (d : Draft) :
    (s.fill d).2.registered = s.registered := by
  rw [fill]
  cases d.sample with
  | given v => rfl
  | wanted t => exact s.synthesize_registered t.name

theorem fillAll_registered (s : Synthesizer) (ds : List Draft) :
    (s.fillAll ds).2.registered = s.registered := by
  induction ds generalizing s with
  | nil => rfl
  | cons d ds ih => exact (ih _).trans (s.fill_registered d)

theorem recipe_congr {s t : Synthesizer} (h : s.registered = t.registered) :
    s.recipe = t.recipe := by
  funext type
  simp [recipe, recipe?, h]

theorem fill_recipe (s : Synthesizer) (d : Draft) : (s.fill d).2.recipe = s.recipe :=
  recipe_congr (s.fill_registered d)

theorem fillAll_filledBy (s : Synthesizer) (ds : List Draft) :
    List.Forall₂ (FilledBy s) ds (s.fillAll ds).1 := by
  induction ds generalizing s with
  | nil => exact .nil
  | cons d ds ih =>
    exact .cons (s.fill_filledBy d)
      ((ih (s.fill d).2).imp fun _ _ hp => hp.congr (s.fill_recipe d))

theorem fillAll_fills (s : Synthesizer) (ds : List Draft) :
    List.Forall₂ Fills ds (s.fillAll ds).1 :=
  (s.fillAll_filledBy ds).imp fun _ _ hp => hp.toFills

theorem fillAll_append (s : Synthesizer) (ds es : List Draft) :
    s.fillAll (ds ++ es) =
      ((s.fillAll ds).1 ++ ((s.fillAll ds).2.fillAll es).1, ((s.fillAll ds).2.fillAll es).2) := by
  induction ds generalizing s with
  | nil => rfl
  | cons d ds ih => simp only [List.cons_append, fillAll, ih]

end Synthesizer
end RouteDoc
