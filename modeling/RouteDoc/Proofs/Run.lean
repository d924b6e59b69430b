/-! Inputs that are answered one after the other by something that keeps a state: an input is answered in the
state that those before it have left, and what every step keeps, all steps keep. -/
namespace RouteDoc.Run
variable {σ ι ο : Type} (f : σ → ι → ο × σ)

def after (s : σ) (inputs : List ι) : σ := inputs.foldl (fun s i => (f s i).2) s

def answers (s : σ) : List ι → List ο
  | [] => []
  | i :: inputs => (f s i).1 :: answers (f s i).2 inputs

theorem after_append (s : σ) (u v : List ι) : after f s (u ++ v) = after f (after f s u) v :=
  List.foldl_append

theorem after_concat (s : σ) (inputs : List ι) (i : ι) :
    after f s (inputs ++ [i]) = (f (after f s inputs) i).2 := after_append f s inputs [i]

theorem getElem?_answers (s : σ) (front : List ι) (i : ι) (behind : List ι) :
    (answers f s (front ++ i :: behind))[front.length]? = some (f (after f s front) i).1 := by
  induction front generalizing s with
  | nil => rfl
  | cons j front ih => simpa [answers, after] using ih (f s j).2

/-- What holds at first and is kept by every step holds after all steps. -/
theorem after_induction {P : σ → Prop} {s : σ} (h : P s) (hstep : ∀ s i, P s → P (f s i).2)
    (inputs : List ι) : P (after f s inputs) := by
  induction inputs generalizing s with
  | nil => exact h
  | cons i inputs ih => exact ih (hstep s i h)

end RouteDoc.Run
