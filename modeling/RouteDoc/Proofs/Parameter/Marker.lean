import Mathlib.Order.Bounds.Basic
import RouteDoc.Proofs.Parameter.Description
import RouteDoc.Proofs.Text.Margin
/-! The place at which a description is split. It is the greatest place of a marker, the text in front
of it is the description proper and the text behind it is the example. A marker can come back in an
example only at its start, where the colon of the last marker has hidden it. -/
namespace RouteDoc.Description
open Text

/-- `Example:` stands at a place, and the character in front of it, if there is one, is blank. -/
structure MarkerAt (s : List Char) (i : Nat) : Prop where
  stands : marker <+: s.drop i
  fresh : ∀ c ∈ (s.take i).getLast?, isBlank c = true

instance (s : List Char) (i : Nat) : Decidable (MarkerAt s i) :=
  decidable_of_iff (marker <+: s.drop i ∧ (s.take i).getLast?.all isBlank = true) <| by
    rw [Option.all_eq_true]
    exact ⟨fun h => ⟨h.1, h.2⟩, fun h => ⟨h.stands, h.fresh⟩⟩

theorem freshAfter_true_iff {a : List Char} :
    freshAfter true a = true ↔ ∀ c ∈ a.getLast?, isBlank c = true := by
  cases h : a.getLast? <;> simp [freshAfter, h]

theorem markerAt_iff {s : List Char} {i : Nat} :
    MarkerAt s i ↔ ∃ a b, s = a ++ marker ++ b ∧ a.length = i ∧ freshAfter true a = true := by
  constructor
  · rintro ⟨⟨b, hb⟩, hfresh⟩
    have hle : i ≤ s.length := by
      have hlength := congrArg List.length hb
      simp only [marker_eq, List.length_append, List.length_drop, List.length_cons] at hlength
      omega
    refine ⟨s.take i, b, ?_, by simpa using hle, freshAfter_true_iff.mpr hfresh⟩
    rw [List.append_assoc, hb, List.take_append_drop]
  · rintro ⟨a, b, rfl, rfl, hfresh⟩
    rw [List.append_assoc]
    exact ⟨by simp, by simpa using freshAfter_true_iff.mp hfresh⟩

theorem hasMarker_iff {s : List Char} : HasMarker s ↔ ∃ i, MarkerAt s i := by
  constructor
  · rintro ⟨a, b, hs, hfresh⟩
    exact ⟨a.length, markerAt_iff.mpr ⟨a, b, hs, rfl, hfresh⟩⟩
  · rintro ⟨i, h⟩
    obtain ⟨a, b, hs, -, hfresh⟩ := markerAt_iff.mp h
    exact ⟨a, b, hs, hfresh⟩

/-- A marker of a part is one of the whole, unless it has lost its place at the start. -/
theorem MarkerAt.append {s : List Char} {i : Nat} (h : MarkerAt s i) {a : List Char}
    (ha : i = 0 → freshAfter true a = true) (b : List Char) : MarkerAt (a ++ s ++ b) (a.length + i) := by
  obtain ⟨x, y, rfl, rfl, hfresh⟩ := markerAt_iff.mp h
  refine markerAt_iff.mpr ⟨a ++ x, y ++ b, by simp, by simp, ?_⟩
  cases x with
  | nil => simpa using ha rfl
  | cons c r =>
    rw [freshAfter_true_iff] at hfresh ⊢
    rwa [List.getLast?_append_of_ne_nil a (by simp)]

/-- A text is split at a place where a marker may stand, and at none that comes later. -/
theorem of_splitAtMarker {fresh : Bool} {s x y : List Char}
    (h : splitAtMarker fresh s = some (x, y)) :
    s = x ++ marker ++ y ∧ freshAfter fresh x = true ∧
      ∀ a b, s = a ++ marker ++ b → freshAfter fresh a = true → a.length ≤ x.length := by
  induction s generalizing fresh x y with
  | nil => simp [splitAtMarker] at h
  | cons c r ih =>
    rw [splitAtMarker] at h
    cases hr : splitAtMarker (isBlank c) r with
    | some t =>
      obtain ⟨x', y'⟩ := t
      simp only [hr, Option.some.injEq, Prod.mk.injEq] at h
      obtain ⟨rfl, rfl⟩ := h
      obtain ⟨hs, hfresh, hlast⟩ := ih hr
      refine ⟨by rw [hs]; rfl, by rwa [freshAfter_cons], fun a b hab ha => ?_⟩
      cases a with
      | nil => exact Nat.zero_le _
      | cons d a =>
        obtain ⟨rfl, hrest⟩ := List.cons.inj hab
        rw [freshAfter_cons] at ha
        exact Nat.succ_le_succ (hlast a b hrest ha)
    | none =>
      simp only [hr] at h
      split at h
      case isFalse => cases h
      case isTrue hmarked =>
        obtain ⟨rfl, rfl⟩ := Prod.mk.inj (Option.some.inj h)
        obtain ⟨hfresh, hprefix⟩ := Bool.and_eq_true_iff.mp hmarked
        obtain ⟨b, hb⟩ := List.isPrefixOf_iff_prefix.mp hprefix
        refine ⟨by rw [← hb]; simp, hfresh, fun a b' hab ha => ?_⟩
        cases a with
        | nil => exact Nat.le_refl _
        | cons d a =>
          obtain ⟨rfl, hrest⟩ := List.cons.inj hab
          rw [freshAfter_cons, splitAtMarker_eq_none_iff.mp hr a b' hrest] at ha
          cases ha

theorem splitAtMarker_eq_some {s x y : List Char} (h : splitAtMarker true s = some (x, y)) :
    IsGreatest {i | MarkerAt s i} x.length ∧ x = s.take x.length ∧
      y = s.drop (x.length + marker.length) := by
  obtain ⟨hs, hfresh, hlast⟩ := of_splitAtMarker h
  refine ⟨⟨markerAt_iff.mpr ⟨x, y, hs, rfl, hfresh⟩, fun i hi => ?_⟩, ?_, ?_⟩
  · obtain ⟨a, b, hab, rfl, ha⟩ := markerAt_iff.mp hi
    exact hlast a b hab ha
  · simp [hs]
  · rw [hs, ← List.length_append, List.drop_left]

def inline? (s : List Char) : Option (List Char) := if trim s = [] then none else some (trim s)

theorem split_of_isGreatest {s : List Char} {i : Nat} (h : IsGreatest {j | MarkerAt s j} i) :
    split s = (trim (s.take i), inline? (s.drop (i + marker.length))) := by
  cases hsplit : splitAtMarker true s with
  | none => exact absurd (hasMarker_iff.mpr ⟨i, h.1⟩) (splitAtMarker_iff.mp hsplit)
  | some t =>
    obtain ⟨x, y⟩ := t
    obtain ⟨hgreatest, hx, hy⟩ := splitAtMarker_eq_some hsplit
    obtain rfl : x.length = i := hgreatest.unique h
    rw [split, hsplit, ← hx, ← hy]
    simp [inline?]

theorem exists_isGreatest {s : List Char} (h : ∃ i, MarkerAt s i) :
    ∃ i, IsGreatest {j | MarkerAt s j} i := by
  cases hsplit : splitAtMarker true s with
  | none => exact absurd (hasMarker_iff.mpr h) (splitAtMarker_iff.mp hsplit)
  | some t => exact ⟨_, (splitAtMarker_eq_some hsplit).1⟩

/-- No marker stands behind the last one but, perhaps, at the start of the text that is left there. -/
theorem markerAt_trim_behind {s : List Char} {i : Nat} (h : IsGreatest {j | MarkerAt s j} i) :
    (∀ j, MarkerAt (trim (s.drop (i + marker.length))) j → j = 0) ∧
      (MarkerAt (trim (s.drop (i + marker.length))) 0 ↔ marker <+: s.drop (i + marker.length)) := by
  obtain ⟨x, y, rfl, rfl, -⟩ := markerAt_iff.mp h.1
  obtain ⟨a, b, ha, hb, hy⟩ := exists_trim y
  rw [← List.length_append, List.drop_left]
  have hwhole : x ++ marker ++ y = x ++ marker ++ a ++ trim y ++ b := by
    conv_lhs => rw [hy]
    simp
  -- a marker that the part has at `j` would be a later one of the whole
  have hlater {j : Nat} (hj : MarkerAt (trim y) j)
      (hfresh : j = 0 → freshAfter true (x ++ marker ++ a) = true) : False := by
    have hle := h.2 (show MarkerAt (x ++ marker ++ y) _ from hwhole ▸ hj.append hfresh b)
    simp only [marker_eq, List.length_append, List.length_cons] at hle
    omega
  refine ⟨fun j hj => ?_, fun hstart => ?_, fun hstart => ?_⟩
  · by_contra hne
    exact hlater hj fun hzero => absurd hzero hne
  · cases List.eq_nil_or_concat' a with
    | inl hnil =>
      have hmarked : marker <+: trim y := by simpa using hstart.stands
      rw [hy, hnil, List.nil_append]
      exact hmarked.trans (List.prefix_append _ b)
    | inr hconcat =>
      obtain ⟨r, c, rfl⟩ := hconcat
      refine (hlater hstart fun _ => freshAfter_true_iff.mpr ?_).elim
      simpa using ha c (by simp)
  · have htrim : marker <+: trim y := by
      obtain ⟨r, rfl⟩ := hstart
      rw [trim, marker_eq, List.cons_append, trimStart_of_head rfl, ← List.cons_append, ← marker_eq,
        prefix_trimEnd_iff (by simp [marker_eq, isBlank])]
      exact List.prefix_append _ r
    exact ⟨by simpa using htrim, by simp⟩

/-- A description without a marker is no more than itself; any other is split at its last marker, into
the text in front of it and the example behind it. A marker may come back in that example only where
it follows the last one without a blank, and an example in which none does is read as it was written. -/
theorem split_lastMarker (s : List Char) :
    ((∀ i, ¬MarkerAt s i) ∧ split s = (s, none) ∨
      ∃ i, IsGreatest {j | MarkerAt s j} i ∧
        split s = (trim (s.take i), inline? (s.drop (i + marker.length)))) ∧
    (∀ i text e, IsGreatest {j | MarkerAt s j} i → split s = (text, some e) →
      (∀ j, MarkerAt e j → j = 0) ∧ (MarkerAt e 0 ↔ marker <+: s.drop (i + marker.length))) ∧
    ∀ t e, s = t ++ " Example: ".toList ++ e → Trimmed e → e ≠ [] → (∀ i, ¬MarkerAt e i) →
      split s = (trim t, some e) := by
  refine ⟨?_, fun i text e hi hsplit => ?_, fun t e hs he hne hnone => ?_⟩
  · by_cases h : ∃ i, MarkerAt s i
    · obtain ⟨i, hi⟩ := exists_isGreatest h
      exact .inr ⟨i, hi, split_of_isGreatest hi⟩
    · exact .inl ⟨not_exists.mp h, split_of_unmarked (mt hasMarker_iff.mp h)⟩
  · have hinline : inline? (s.drop (i + marker.length)) = some e := by
      rw [split_of_isGreatest hi] at hsplit
      exact (Prod.mk.inj hsplit).2
    rw [inline?] at hinline
    split at hinline
    case isTrue => cases hinline
    case isFalse =>
      obtain rfl := Option.some.inj hinline
      exact markerAt_trim_behind hi
  · have hfresh : freshAfter true (t ++ [' ']) = true := freshAfter_true_iff.mpr (by simp [isBlank])
    have hparts : s = t ++ [' '] ++ marker ++ ' ' :: e := by simp [hs, marker_eq]
    rw [hparts, split_of_marked hfresh he hne (mt hasMarker_iff.mp (not_exists.mpr hnone)),
      trim_append_blanks (by simp [AllBlank, isBlank])]

def twice : List Char := "Like Example: a or\nExample:\u2003b".toList

theorem split_lastMarker_twice :
    IsGreatest {j | MarkerAt twice j} 19 ∧
      split twice = ("Like Example: a or".toList, some ['b']) ∧
      (∀ j, MarkerAt ['b'] j → j = 0) ∧ (MarkerAt ['b'] 0 ↔ marker <+: twice.drop 27) ∧
      split "Two Example: a Example: b c".toList = ("Two Example: a".toList, some "b c".toList) := by
  have hgreatest : IsGreatest {j | MarkerAt twice j} 19 :=
    (splitAtMarker_eq_some (x := "Like Example: a or\n".toList) (y := "\u2003b".toList) (by decide)).1
  have hsplit : split twice = ("Like Example: a or".toList, some ['b']) := by decide
  have hnone : ∀ i, ¬MarkerAt "b c".toList i :=
    not_exists.mp (mt hasMarker_iff.mpr (splitAtMarker_iff.mp (by decide)))
  obtain ⟨hlater, hstart⟩ := (split_lastMarker twice).2.1 19 _ _ hgreatest hsplit
  exact ⟨hgreatest, hsplit, hlater, hstart, (split_lastMarker _).2.2 "Two Example: a".toList _
    (by decide) (by decide) (by decide) hnone⟩

/-- The second marker follows the first one without a blank, so it belongs to the example. -/
theorem split_glued :
    split "Example:Example: x".toList = ([], some "Example: x".toList) ∧
      MarkerAt "Example: x".toList 0 := by
  decide

end RouteDoc.Description
