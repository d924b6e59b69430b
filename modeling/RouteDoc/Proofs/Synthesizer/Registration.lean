import Mathlib.Data.List.Induction
import RouteDoc.Parameter.Cast
import RouteDoc.Proofs.Assoc
import RouteDoc.Proofs.Run
import RouteDoc.Proofs.Synthesizer
import RouteDoc.Synthesizer
/-! Recipes that are registered while samples are drawn. What a type yields depends on what was registered
before and on how often was drawn before, and on nothing else. -/
namespace RouteDoc.Synthesizer

inductive Step where
  | register (type : String) (r : Recipe)
  | synthesize (type : String)
  | cast (text type : String)

def Step.registers? (type : String) : Step → Option Recipe
  | register t r => if t = type then some r else none
  | _ => none

def perform (s : Synthesizer) : Step → Option Value × Synthesizer
  | .register type r => (none, s.register type r)
  | .synthesize type => (some (s.synthesize type).1, (s.synthesize type).2)
  | .cast text type => (some (ParamType.castNamed text type), s)

theorem synthesize_counter (s : Synthesizer) (type : String) :
    (s.synthesize type).2.counter = s.counter + (s.recipe type).draws.toNat := by
  rw [synthesize]
  cases hdraws : (s.recipe type).draws <;> simp

theorem get?_register (s : Synthesizer) (type : String) (r : Recipe) (other : String) :
    Assoc.get? other (s.register type r).registered =
      ((Step.register type r).registers? other).or (Assoc.get? other s.registered) := by
  rw [register, Step.registers?]
  by_cases h : type = other
  · rw [h, Assoc.get?_insert_self, if_pos rfl, Option.some_or]
  · rw [Assoc.get?_insert_of_ne (Ne.symm h), if_neg h, Option.none_or]

def run (n : Int) (steps : List Step) : Synthesizer := Run.after perform (countingFrom n) steps

def answers (n : Int) (steps : List Step) : List (Option Value) :=
  Run.answers perform (countingFrom n) steps

def registered? (type : String) (steps : List Step) : Option Recipe :=
  steps.reverse.findSome? (Step.registers? type)

/-- The recipe that a type has after steps: the one registered last, else its own; a text that is no type has
what strings have by then. -/
def inForce (steps : List Step) (type : String) : Recipe :=
  match registered? type steps, ParamType.ofName? type with
  | some r, _ => r
  | none, some t => .ofType t
  | none, none => (registered? "string" steps).getD (.ofType .string)

def Step.drawsAfter (before : List Step) : Step → Bool
  | synthesize type => (inForce before type).draws
  | _ => false

def draws (steps : List Step) : Nat :=
  (List.range steps.length).countP fun i => steps[i]?.any (Step.drawsAfter (steps.take i))

def yield? (before : List Step) (n : Int) : Step → Option Value
  | .register _ _ => none
  | .synthesize type => some ((inForce before type).value n)
  | .cast text type => some (ParamType.castNamed text type)

variable (n : Int) (steps : List Step)

theorem run_concat (step : Step) : run n (steps ++ [step]) = ((run n steps).perform step).2 :=
  Run.after_concat perform (countingFrom n) steps step

theorem registers?_eq_some_iff {type : String} {step : Step} {r : Recipe} :
    step.registers? type = some r ↔ step = .register type r := by
  cases step with
  | register t q =>
    rw [Step.registers?]
    by_cases h : t = type <;> simp [h]
  | _ => simp [Step.registers?]

theorem registered?_eq_some_iff {steps : List Step} {type : String} {r : Recipe} :
    registered? type steps = some r ↔
      ∃ front behind, steps = front ++ .register type r :: behind ∧
        ∀ q, .register type q ∉ behind := by
  have hnone {behind : List Step} :
      (∀ step ∈ behind, step.registers? type = none) ↔ ∀ q, .register type q ∉ behind := by
    constructor
    · intro h q hq
      simpa [Step.registers?] using h _ hq
    · intro h step hstep
      rw [Option.eq_none_iff_forall_ne_some]
      intro q hq
      exact h q (registers?_eq_some_iff.mp hq ▸ hstep)
  rw [registered?, List.findSome?_eq_some_iff]
  constructor
  · rintro ⟨behind, step, front, hsplit, hstep, hbehind⟩
    obtain rfl := registers?_eq_some_iff.mp hstep
    refine ⟨front.reverse, behind.reverse, ?_, ?_⟩
    · rw [← List.reverse_reverse steps, hsplit]
      simp
    · exact hnone.mp fun step hstep => hbehind step (List.mem_reverse.mp hstep)
  · rintro ⟨front, behind, rfl, hbehind⟩
    refine ⟨behind.reverse, .register type r, front.reverse, by simp, by simp [Step.registers?], ?_⟩
    exact fun step hstep => hnone.mpr hbehind step (List.mem_reverse.mp hstep)

theorem registered?_concat (type : String) (step : Step) :
    registered? type (steps ++ [step]) = (step.registers? type).or (registered? type steps) := by
  rw [registered?, List.reverse_append, List.reverse_singleton, List.singleton_append,
    List.findSome?_cons]
  cases step.registers? type <;> rfl

/-- What is kept of the steps before is what was registered last for each type. -/
theorem get?_run (type : String) :
    Assoc.get? type (run n steps).registered = registered? type steps := by
  induction steps using List.reverseRecOn with
  | nil => rfl
  | append_singleton steps step ih =>
    rw [run_concat, registered?_concat, ← ih]
    cases step with
    | register t r => exact get?_register _ t r type
    | synthesize t => rw [perform, synthesize_registered]; rfl
    | cast text t => rfl

theorem recipe_run (type : String) : (run n steps).recipe type = inForce steps type := by
  have hstring : ParamType.ofName? "string" = some .string := rfl
  simp only [recipe, recipe?, get?_run, inForce, hstring]
  cases registered? type steps with
  | some r => rfl
  | none =>
    cases ParamType.ofName? type with
    | some t => rfl
    | none => cases registered? "string" steps <;> rfl

theorem draws_concat (step : Step) :
    draws (steps ++ [step]) = draws steps + (step.drawsAfter steps).toNat := by
  have hbefore : (List.range steps.length).countP
      (fun i => (steps ++ [step])[i]?.any (Step.drawsAfter ((steps ++ [step]).take i))) =
        draws steps := by
    refine List.countP_congr fun i hi => ?_
    have hlt : i < steps.length := List.mem_range.mp hi
    rw [List.getElem?_append_left hlt, List.take_append_of_le_length (Nat.le_of_lt hlt)]
  rw [draws, List.length_append, List.length_singleton, List.range_succ, List.countP_append, hbefore,
    List.countP_singleton, List.getElem?_concat_length, List.take_left, Option.any_some]
  cases step.drawsAfter steps <;> rfl

theorem counter_run : (run n steps).counter = n + draws steps := by
  induction steps using List.reverseRecOn with
  | nil => simp [run, Run.after, countingFrom, draws]
  | append_singleton steps step ih =>
    rw [run_concat, draws_concat]
    cases step with
    | register t r => simpa [perform, register, Step.drawsAfter] using ih
    | synthesize t =>
      rw [perform, synthesize_counter, recipe_run, ih, Step.drawsAfter]
      omega
    | cast text t => simpa [perform, Step.drawsAfter] using ih

theorem perform_run (step : Step) :
    ((run n steps).perform step).1 = yield? steps (n + draws steps) step := by
  cases step with
  | synthesize type => rw [perform, synthesize, recipe_run, counter_run, yield?]
  | _ => rfl

/-- A registration changes what its type has and, when it is for strings, what all have that are no type and
not registered. -/
theorem inForce_concat_register (type : String) (r : Recipe) (other : String) :
    inForce (steps ++ [.register type r]) other =
      if other = type ∨ type = "string" ∧ ParamType.ofName? other = none ∧ registered? other steps = none
      then r else inForce steps other := by
  simp only [inForce, registered?_concat, Step.registers?]
  by_cases hother : other = type
  · simp [hother]
  · rw [if_neg (Ne.symm hother), Option.none_or]
    by_cases hstring : type = "string"
    · subst hstring
      rw [if_pos rfl]
      cases registered? other steps <;> cases ParamType.ofName? other <;> simp [hother]
    · simp [hother, hstring]

/-- Over any steps a sample is made by the recipe that was registered last for its type, else by the type's own,
else, for a text that is no type, by the one that strings have by then. The count goes up by one with each
sample whose recipe draws. Registrations and casts do not move it, and they leave the recipes of other types as
they are, but for those without one of their own when strings get another. -/
theorem answers_byRegistration :
    (∀ type r, registered? type steps = some r ↔
      ∃ front behind, steps = front ++ .register type r :: behind ∧
        ∀ q, .register type q ∉ behind) ∧
    (∀ before step behind, steps = before ++ step :: behind →
      (answers n steps)[before.length]? = some (yield? before (n + draws before) step)) ∧
    (∀ type, (run n steps).recipe type = inForce steps type) ∧
    (run n steps).counter = n + draws steps ∧
    (∀ type r, (run n (steps ++ [.register type r])).counter = (run n steps).counter ∧
      ∀ other, (run n (steps ++ [.register type r])).recipe other =
        if other = type ∨
          type = "string" ∧ ParamType.ofName? other = none ∧ registered? other steps = none
        then r else (run n steps).recipe other) ∧
    ∀ text type, run n (steps ++ [.cast text type]) = run n steps := by
  refine ⟨fun type r => registered?_eq_some_iff, ?_, recipe_run n steps, counter_run n steps,
    fun type r => ⟨?_, fun other => ?_⟩, fun text type => ?_⟩
  · rintro before step behind rfl
    rw [answers, Run.getElem?_answers, ← perform_run]
    rfl
  · rw [run_concat]
    rfl
  · rw [recipe_run, recipe_run, inForce_concat_register]
  · rw [run_concat]
    rfl

def followedSteps : List Step := [.synthesize "color", .register "string" (.constant (.int 0)),
  .synthesize "color", .cast "7" "integer", .register "color" .boolean, .register "string" .word,
  .synthesize "color", .synthesize "string"]

theorem answers_byRegistration_followed :
    answers (-3) followedSteps = [some (.text "word-3"), none, some (.int 0), some (.int 7), none, none,
      some (.bool true), some (.text "word-1")] ∧
      (run (-3) followedSteps).counter = 0 ∧
      registered? "string" followedSteps = some .word ∧
      (answers (-3) followedSteps)[2]? = some (some (.int 0)) := by
  obtain ⟨hlast, hanswers, -, hcounter, -⟩ := answers_byRegistration (-3) followedSteps
  have hword : registered? "string" followedSteps = some .word :=
    (hlast "string" .word).mpr ⟨followedSteps.take 5, followedSteps.drop 6, rfl, by simp [followedSteps]⟩
  exact ⟨rfl, hcounter.trans rfl, hword,
    hanswers (followedSteps.take 2) (.synthesize "color") (followedSteps.drop 3) rfl⟩

end RouteDoc.Synthesizer
