import RouteDoc.Parameter.Description
import RouteDoc.Proofs.Text.Blank
/-! The inline example of a description: the last marker splits it, and a text without markers is no
more than itself. -/
namespace RouteDoc.Description
open Text

theorem marker_eq : marker = ['E', 'x', 'a', 'm', 'p', 'l', 'e', ':'] := rfl

def freshAfter (fresh : Bool) (s : List Char) : Bool := (s.getLast?.map isBlank).getD fresh

@[simp] theorem freshAfter_nil (fresh : Bool) : freshAfter fresh [] = fresh := rfl

theorem freshAfter_cons (fresh : Bool) (c : Char) (s : List Char) :
    freshAfter fresh (c :: s) = freshAfter (isBlank c) s := by
  cases h : s.getLast? <;> simp [freshAfter, List.getLast?_cons, h]

def HasMarker (s : List Char) : Prop :=
  ∃ a b, s = a ++ marker ++ b ∧ freshAfter true a = true

/-- There is nothing to split at when no marker stands where one may. -/
theorem splitAtMarker_eq_none_iff {fresh : Bool} {s : List Char} :
    splitAtMarker fresh s = none ↔ ∀ a b, s = a ++ marker ++ b → freshAfter fresh a = false := by
  induction s generalizing fresh with
  | nil => simp [splitAtMarker, marker_eq]
  | cons c r ih =>
    rw [splitAtMarker]
    constructor
    · intro h a b hs
      cases hr : splitAtMarker (isBlank c) r with
      | some t => simp [hr] at h
      | none =>
        simp only [hr] at h
        cases a with
        | nil =>
          have hp : marker.isPrefixOf (c :: r) = true := by
            rw [List.isPrefixOf_iff_prefix, hs, List.nil_append]
            exact List.prefix_append _ _
          simpa [hp] using h
        | cons d a =>
          obtain ⟨rfl, hr'⟩ := List.cons.inj hs
          rw [freshAfter_cons]
          exact ih.mp hr a b hr'
    · intro h
      have hr : splitAtMarker (isBlank c) r = none := by
        refine ih.mpr fun a b hr => ?_
        rw [← freshAfter_cons fresh]
        exact h (c :: a) b (congrArg (c :: ·) hr)
      cases hp : marker.isPrefixOf (c :: r) with
      | false => simp [hr]
      | true =>
        obtain ⟨b, hb⟩ := List.isPrefixOf_iff_prefix.mp hp
        have hf : fresh = false := h [] b hb.symm
        simp [hr, hf]

theorem splitAtMarker_iff {s : List Char} : splitAtMarker true s = none ↔ ¬HasMarker s := by
  rw [splitAtMarker_eq_none_iff]
  constructor
  · rintro h ⟨a, b, hs, hf⟩
    exact absurd (h a b hs) (by simp [hf])
  · intro h a b hs
    cases hf : freshAfter true a with
    | false => rfl
    | true => exact absurd ⟨a, b, hs, hf⟩ h

instance (s : List Char) : Decidable (HasMarker s) :=
  decidable_of_iff (¬splitAtMarker true s = none) (by rw [splitAtMarker_iff, not_not])

theorem splitAtMarker_append {fresh : Bool} {a s x y : List Char}
    (h : splitAtMarker (freshAfter fresh a) s = some (x, y)) :
    splitAtMarker fresh (a ++ s) = some (a ++ x, y) := by
  induction a generalizing fresh with
  | nil => exact h
  | cons c r ih =>
    rw [freshAfter_cons] at h
    rw [List.cons_append, splitAtMarker, ih h]
    rfl

theorem splitAtMarker_marker {b : List Char} (h : splitAtMarker false b = none) :
    splitAtMarker true (marker ++ b) = some ([], b) := by
  simp [marker_eq, splitAtMarker, isBlank, h]

/-- A description with an example behind it, in which no marker stands, is split at that marker. -/
theorem split_of_marked {a e : List Char} (ha : freshAfter true a = true) (he : Trimmed e)
    (hne : e ≠ []) (hm : ¬HasMarker e) : split (a ++ marker ++ ' ' :: e) = (trim a, some e) := by
  have hrest : splitAtMarker false (' ' :: e) = none := by
    have hblank : isBlank ' ' = true := rfl
    simp [splitAtMarker, hblank, splitAtMarker_iff.mpr hm]
  have hsplit : splitAtMarker true (a ++ marker ++ ' ' :: e) = some (a, ' ' :: e) := by
    rw [List.append_assoc]
    have hmark := splitAtMarker_marker hrest
    rw [← ha] at hmark
    simpa using splitAtMarker_append hmark
  have htrim : trim (' ' :: e) = e := by
    simpa using trim_append (a := [' ']) (b := []) (by simp [AllBlank, isBlank])
      (by simp [AllBlank]) he
  simp only [split, hsplit, htrim]
  simp [hne]

theorem split_of_unmarked {s : List Char} (h : ¬HasMarker s) : split s = (s, none) := by
  rw [split, splitAtMarker_iff.mpr h]

end RouteDoc.Description
