import RouteDoc.Proofs.Outcome
import RouteDoc.Value.Shown
/-! Which values have a text: every value in them has one, integers up to a count of digits and objects as
they like, and none is nested deeper than there is room for. -/
namespace RouteDoc.Value
open Text

def parts : Value → List Value
  | .list xs | .tuple xs | .set xs => xs
  | .mapping es => es.flatMap fun e => [e.1, e.2]
  | _ => []

/-- A value in another, so many levels deep. -/
inductive Inside : Nat → Value → Value → Prop
  | self (v : Value) : Inside 0 v v
  | part {depth : Nat} {v x y : Value} : x ∈ v.parts → Inside depth y x → Inside (depth + 1) y v

/-- What a value raises in place of a text of its own. -/
inductive Textless : Value → Raised → Prop
  | integer {n : Int} : Numeral.digitLimit < (Nat.toDigits 10 n.natAbs).length →
      Textless (.int n) .tooManyDigits
  | object {alone : Except Raised String} {e : Raised} : Textless (.object alone (.error e)) e

theorem shownItems_eq (room : Nat) (xs : List Value) :
    shownItems room xs = xs.mapM (shownInside room) := by
  induction xs with
  | nil => rfl
  | cons x xs ih => rw [shownItems, ih, List.mapM_cons]

def entryTexts : List String → List String
  | k :: v :: r => (k ++ ": " ++ v) :: entryTexts r
  | _ => []

theorem shownEntries_eq (room : Nat) (es : List (Value × Value)) :
    shownEntries room es =
      ((es.flatMap fun e => [e.1, e.2]).mapM (shownInside room)).map entryTexts := by
  induction es with
  | nil => rfl
  | cons e es ih =>
    rw [shownEntries, ih, List.flatMap_cons, List.cons_append, List.cons_append, List.nil_append,
      List.mapM_cons, List.mapM_cons]
    cases shownInside room e.1 with
    | error d => rfl
    | ok t =>
      cases shownInside room e.2 with
      | error d => rfl
      | ok u => cases (es.flatMap fun e => [e.1, e.2]).mapM (shownInside room) <;> rfl

/-- A value raises what is its own, or is shown by the texts of its parts. -/
theorem shownInside_succ (room : Nat) (v : Value) :
    (∃ e, Textless v e ∧ shownInside (room + 1) v = .error e) ∨
      (∀ e, ¬Textless v e) ∧ ∃ f : List String → String,
        shownInside (room + 1) v = (v.parts.mapM (shownInside room)).map f := by
  have hleaf {u : Value} {t : String} (hparts : u.parts = [])
      (ht : shownInside (room + 1) u = .ok t) : ∃ f : List String → String,
        shownInside (room + 1) u = (u.parts.mapM (shownInside room)).map f :=
    ⟨fun _ => t, by rw [ht, hparts]; rfl⟩
  cases v with
  | int n =>
    by_cases hlong : Numeral.digitLimit < (Nat.toDigits 10 n.natAbs).length
    · exact .inl ⟨_, .integer hlong, by rw [shownInside, showInteger, if_pos hlong]⟩
    · refine .inr ⟨fun e he => ?_, hleaf rfl (by rw [shownInside, showInteger, if_neg hlong])⟩
      cases he with
      | integer h => exact hlong h
  | object alone inside =>
    cases inside with
    | error e => exact .inl ⟨e, .object, by rw [shownInside]⟩
    | ok t => exact .inr ⟨nofun, hleaf (t := t) rfl (by rw [shownInside])⟩
  | list xs => exact .inr ⟨nofun, _, by rw [shownInside, shownItems_eq, parts]⟩
  | tuple xs =>
    refine .inr ⟨nofun, ?_⟩
    match xs with
    | [x] =>
      refine ⟨fun ts => "(" ++ ts.headD "" ++ ",)", ?_⟩
      rw [shownInside, parts, List.mapM_cons, List.mapM_nil]
      cases shownInside room x <;> rfl
    | [] => exact ⟨_, by rw [shownInside, shownItems_eq, parts]; nofun⟩
    | x :: y :: xs => exact ⟨_, by rw [shownInside, shownItems_eq, parts]; nofun⟩
  | set xs =>
    refine .inr ⟨nofun, ?_⟩
    cases xs with
    | nil => exact hleaf (t := "set()") rfl (by rw [shownInside])
    | cons x xs => exact ⟨_, by rw [shownInside, shownItems_eq, parts]; nofun⟩
  | mapping es =>
    refine .inr ⟨nofun, fun ts => "\x7b" ++ ", ".intercalate (entryTexts ts) ++ "\x7d", ?_⟩
    rw [shownInside, shownEntries_eq, parts]
    cases (es.flatMap fun e => [e.1, e.2]).mapM (shownInside room) <;> rfl
  | null => exact .inr ⟨nofun, hleaf (t := "None") rfl (by rw [shownInside])⟩
  | bool b => exact .inr ⟨nofun, hleaf (t := if b then "True" else "False") rfl (by rw [shownInside])⟩
  | float x => exact .inr ⟨nofun, hleaf (t := x.text) rfl (by rw [shownInside])⟩
  | text s => exact .inr ⟨nofun, hleaf (t := quoted s) rfl (by rw [shownInside])⟩
  | bytes bs => exact .inr ⟨nofun, hleaf (t := String.ofList (showBytes bs)) rfl (by rw [shownInside])⟩
  | moment m => exact .inr ⟨nofun, hleaf (t := momentInside m) rfl (by rw [shownInside])⟩

theorem exists_shownInside_iff {room : Nat} {v : Value} :
    (∃ t, shownInside room v = .ok t) ↔
      ∀ depth x, Inside depth x v → depth < room ∧ ∀ e, ¬Textless x e := by
  induction room generalizing v with
  | zero =>
    constructor
    · rintro ⟨t, h⟩
      rw [shownInside] at h
      cases h
    · intro h
      exact absurd (h 0 v (.self v)).1 (Nat.not_lt_zero 0)
  | succ room ih =>
    rcases shownInside_succ room v with ⟨e, htextless, he⟩ | ⟨htext, f, hf⟩
    · rw [he]
      refine ⟨fun ⟨t, h⟩ => absurd h nofun, fun h => ?_⟩
      exact absurd htextless ((h 0 v (.self v)).2 e)
    · have hparts : (∃ t, shownInside (room + 1) v = .ok t) ↔
          ∀ x ∈ v.parts, ∃ t, shownInside room x = .ok t := by
        rw [hf, ← exists_mapM_eq_ok_iff]
        cases v.parts.mapM (shownInside room) <;> simp [Except.map]
      rw [hparts]
      constructor
      · intro h depth x hinside
        cases hinside with
        | self => exact ⟨Nat.succ_pos room, htext⟩
        | @part depth _ y _ hy hinside =>
          obtain ⟨hdepth, hx⟩ := ih.mp (h y hy) depth x hinside
          exact ⟨Nat.succ_lt_succ hdepth, hx⟩
      · intro h x hx
        refine ih.mpr fun depth y hinside => ?_
        obtain ⟨hdepth, hy⟩ := h (depth + 1) y (.part hx hinside)
        exact ⟨Nat.lt_of_succ_lt_succ hdepth, hy⟩

/-- What is raised in place of a text is raised by a value inside, or there is no room for one. -/
theorem shownInside_eq_error {room : Nat} {v : Value} {e : Raised} (h : shownInside room v = .error e) :
    ∃ depth x, Inside depth x v ∧ (depth = room ∧ e = .tooDeep ∨ depth < room ∧ Textless x e) := by
  induction room generalizing v with
  | zero =>
    rw [shownInside] at h
    exact ⟨0, v, .self v, .inl ⟨rfl, (Except.error.inj h).symm⟩⟩
  | succ room ih =>
    rcases shownInside_succ room v with ⟨d, htextless, hd⟩ | ⟨htext, f, hf⟩
    · rw [hd] at h
      obtain rfl := Except.error.inj h
      exact ⟨0, v, .self v, .inr ⟨Nat.succ_pos room, htextless⟩⟩
    · obtain ⟨x, hx, he⟩ := mapM_eq_error (map_eq_error_iff.mp (hf ▸ h))
      obtain ⟨depth, y, hinside, hy⟩ := ih he
      refine ⟨depth + 1, y, .part hx hinside, ?_⟩
      rcases hy with ⟨rfl, rfl⟩ | ⟨hdepth, hy⟩
      · exact .inl ⟨rfl, rfl⟩
      · exact .inr ⟨Nat.succ_lt_succ hdepth, hy⟩

def HasText (room : Nat) : Value → Prop
  | .text _ => True
  | .object alone _ => 0 < room ∧ ∃ t, alone = .ok t
  | v => ∀ depth x, Inside depth x v → depth < room ∧ ∀ e, ¬Textless x e

theorem exists_shown_iff {room : Nat} {v : Value} : (∃ t, v.shown room = .ok t) ↔ v.HasText room := by
  cases v with
  | text s => exact ⟨fun _ => trivial, fun _ => ⟨s, by rw [shown]⟩⟩
  | object alone inside =>
    cases room with
    | zero => simp [shown, shownInside, HasText]
    | succ room => simp [shown, HasText]
  | moment m =>
    rw [HasText, ← exists_shownInside_iff]
    · cases room with
      | zero => rfl
      | succ room => simp [shown, shownInside]
    all_goals simp
  | _ => rw [HasText, ← exists_shownInside_iff, shown] <;> simp

end RouteDoc.Value
