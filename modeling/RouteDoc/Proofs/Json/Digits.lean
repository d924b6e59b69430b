import Mathlib.Data.List.TakeWhile
import RouteDoc.Json.Reader
import RouteDoc.Text.Digit
/-! Texts of digits in JSON. Only the ten digits of ASCII make numbers, and only the number zero starts
with a zero, so a text of digits of any script is an integer or no JSON at all. -/
namespace RouteDoc.Json

theorem ne_of_holds {p : Char → Bool} {c d : Char} (hc : p c = true) (hd : p d = false) : c ≠ d := by
  rintro rfl
  simp [hc] at hd

section
variable {s : List Char} (hs : ∀ c ∈ s.head?, Text.isDigit c = true)
include hs

theorem skipSpace_of_digit : skipSpace s = s := by
  cases s with
  | nil => rfl
  | cons c r =>
    have hc : isSpace c = false := by
      have hne {d : Char} (hd : Text.isDigit d = false) : c ≠ d := ne_of_holds (hs c rfl) hd
      simp [isSpace, hne (d := ' ') (by decide), hne (d := '\t') (by decide),
        hne (d := '\n') (by decide), hne (d := '\r') (by decide)]
    exact List.dropWhile_cons_of_neg (by simp [hc])

theorem fraction?_of_digit : fraction? s = none := by
  unfold fraction?
  split
  case h_1 r => exact absurd (hs '.' rfl) (by decide)
  case h_2 => rfl

theorem exponent?_of_digit : exponent? s = none := by
  cases s with
  | nil => rfl
  | cons c r =>
    have hc : ¬(c = 'e' ∨ c = 'E') :=
      not_or.mpr ⟨ne_of_holds (hs c rfl) (by decide), ne_of_holds (hs c rfl) (by decide)⟩
    rw [exponent?, if_neg hc]

end

theorem word_of_digit {c : Char} (hc : Text.isDigit c = true) (r : List Char) :
    word (c :: r) = .error .malformed := by
  have hafter {w : String} {d : Char} {u : List Char} (hw : w.toList = d :: u)
      (hd : Text.isDigit d = false) : afterWord? w (c :: r) = none := by
    have hne : (d == c) = false := by simpa using (ne_of_holds hc hd).symm
    simp [afterWord?, hw, List.isPrefixOf, hne]
  simp [word, hafter (w := "null") rfl (by decide), hafter (w := "true") rfl (by decide),
    hafter (w := "false") rfl (by decide), hafter (w := "NaN") rfl (by decide),
    hafter (w := "Infinity") rfl (by decide)]

theorem readValue_of_digit {c : Char} (hc : Text.isDigit c = true) (room n : Nat) (r : List Char) :
    readValue room (n + 1) (c :: r) =
      if isDigit c then number false (c :: r) else .error .malformed := by
  rw [← word_of_digit hc r]
  unfold readValue
  split
  case h_1 r' heq => exact absurd ((List.cons.inj heq).1 ▸ hc) (by decide)
  case h_2 r' heq => exact absurd ((List.cons.inj heq).1 ▸ hc) (by decide)
  case h_3 r' heq => exact absurd ((List.cons.inj heq).1 ▸ hc) (by decide)
  case h_4 r' heq => exact absurd ((List.cons.inj heq).1 ▸ hc) (by decide)
  case h_5 c' r' heq =>
    obtain ⟨rfl, rfl⟩ := List.cons.inj heq
    rfl
  case h_6 heq => cases heq

def signed (negative : Bool) (ds : List Char) : Int := if negative then -(value ds : Int) else value ds

theorem number_of_whole {negative : Bool} {s w r : List Char} (hwhole : integerPart? s = some (w, r))
    (hf : fraction? r = none) (he : exponent? r = none) :
    number negative s = if w.length > Numeral.digitLimit then .error .tooManyDigits
      else .ok (.int (signed negative w), r) := by
  simp only [number, hwhole, hf, Option.map_none, Option.getD_none, he, signed]

theorem number_of_integerPart? {s whole rest : List Char} (h : integerPart? s = some (whole, rest))
    (hlen : whole.length ≤ Numeral.digitLimit) (hrest : ∀ c ∈ rest.head?, Text.isDigit c = true) :
    number false s = .ok (.int (value whole), rest) := by
  rw [number_of_whole h (fraction?_of_digit hrest) (exponent?_of_digit hrest),
    if_neg (Nat.not_lt.mpr hlen)]
  rfl

/-- What is left of a number of digits is read by no one. -/
theorem read_of_number {c : Char} {r whole rest : List Char}
    (hs : ∀ d ∈ c :: r, Text.isDigit d = true) (hc : isDigit c = true)
    (h : number false (c :: r) = .ok (.int (value whole), rest)) (hrest : rest ⊆ c :: r)
    (room : Nat) :
    read room (c :: r) = if rest = [] then .ok (.int (value whole)) else .error .malformed := by
  have hskip : skipSpace (c :: r) = c :: r := skipSpace_of_digit fun d hd =>
    hs d (List.mem_of_mem_head? hd)
  have hend : skipSpace rest = rest :=
    skipSpace_of_digit fun d hd => hs d (hrest (List.mem_of_mem_head? hd))
  rw [read, hskip, readValue_of_digit (hs c (by simp)), if_pos hc, h]
  simp only [hend, List.isEmpty_iff]

theorem integerPart?_of_ne_zero {c : Char} (hc : isDigit c = true) (hzero : c ≠ '0')
    (r : List Char) : integerPart? (c :: r) = some (spanDigits (c :: r)) := by
  unfold integerPart?
  split
  case h_1 r' heq => exact absurd (List.cons.inj heq).1 hzero
  case h_2 => simp [spanDigits, hc]

theorem read_of_digits {s : List Char} (hs : ∀ c ∈ s, Text.isDigit c = true) (hne : s ≠ [])
    (hlen : s.length ≤ Numeral.digitLimit) (room : Nat) :
    read room s = if s.all isDigit = true ∧ (s.head? = some '0' → s = ['0']) then
      .ok (.int (value s)) else .error .malformed := by
  obtain ⟨c, r, rfl⟩ := List.exists_cons_of_ne_nil hne
  by_cases hc : isDigit c = true
  · by_cases hzero : c = '0'
    · subst hzero
      have hnumber : number false ('0' :: r) = .ok (.int (value ['0']), r) :=
        number_of_integerPart? rfl (by decide) fun d hd =>
          hs d (List.mem_cons_of_mem _ (List.mem_of_mem_head? hd))
      rw [read_of_number hs hc hnumber (List.subset_cons_self _ _)]
      by_cases hr : r = [] <;> simp [hr, hc]
    · have hsub : (c :: r).dropWhile isDigit ⊆ c :: r := (List.dropWhile_sublist _).subset
      have hnumber := number_of_integerPart? (integerPart?_of_ne_zero hc hzero r)
        (Nat.le_trans (List.takeWhile_sublist _).length_le hlen)
        fun d hd => hs d (hsub (List.mem_of_mem_head? hd))
      have hrest : (c :: r).dropWhile isDigit = [] ↔
          (c :: r).all isDigit = true ∧ ((c :: r).head? = some '0' → c :: r = ['0']) := by
        simp [List.dropWhile_eq_nil_iff, hzero]
      rw [read_of_number hs hc hnumber hsub, if_congr hrest rfl rfl]
      split
      case isTrue hall => rw [List.takeWhile_eq_self_iff.mpr (List.all_eq_true.mp hall.1)]
      case isFalse => rfl
  · have hskip : skipSpace (c :: r) = c :: r := skipSpace_of_digit fun d hd =>
      hs d (List.mem_of_mem_head? hd)
    rw [read, hskip, readValue_of_digit (hs c (by simp)), if_neg hc,
      if_neg fun hall => hc (List.all_eq_true.mp hall.1 c (by simp))]

end RouteDoc.Json
