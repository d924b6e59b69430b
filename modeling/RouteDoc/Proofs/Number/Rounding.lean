import Mathlib.Data.Int.Log
import Mathlib.Data.Rat.Floor
import RouteDoc.Number.Binary64
/-! Rounding depends on the quotient alone, whatever fraction it is written as. Its results are in one
form, and what is in that form is rounded to itself. -/
namespace RouteDoc.Binary64

/-- Significand and exponent in the form that rounding makes. -/
structure Normal (m : Nat) (e : Int) : Prop where
  below : m < 2 ^ 53
  least : leastExponent ≤ e
  greatest : e ≤ greatestExponent
  full : 2 ^ 52 ≤ m ∨ e = leastExponent

inductive Rounded : Binary64 → Prop
  | nan : Rounded .nan
  | infinite (s : Bool) : Rounded (.infinite s)
  | finite (s : Bool) {m : Nat} {e : Int} (h : Normal m e) : Rounded (.finite s m e)

theorem two_zpow (e : Int) : (2 : ℚ) ^ e = 2 ^ e.toNat / 2 ^ (-e).toNat := by
  obtain ⟨n, rfl | rfl⟩ := e.eq_nat_or_neg
  · simp
  · simp

theorem two_zpow_pos (e : Int) : (0 : ℚ) < 2 ^ e := zpow_pos (by norm_num) e

theorem two_zpow_add (a b : Int) : (2 : ℚ) ^ (a + b) = 2 ^ a * 2 ^ b := zpow_add₀ (by norm_num) a b

theorem quotient_pos {num den : Nat} (hnum : num ≠ 0) (hden : den ≠ 0) : (0 : ℚ) < num / den :=
  div_pos (Nat.cast_pos.mpr (Nat.pos_of_ne_zero hnum)) (Nat.cast_pos.mpr (Nat.pos_of_ne_zero hden))

theorem le_log_iff {x : ℚ} (hx : 0 < x) {t : Int} : t ≤ Int.log 2 x ↔ 2 ^ t ≤ x := by
  simpa using (Int.zpow_le_iff_le_log (R := ℚ) (b := 2) (by norm_num) (x := t) hx).symm

theorem log_lt_iff {x : ℚ} (hx : 0 < x) {t : Int} : Int.log 2 x < t ↔ x < 2 ^ t := by
  rw [← not_le, le_log_iff hx, not_le]

theorem log_natCast (n : Nat) : Int.log 2 (n : ℚ) = n.log2 := by
  rw [Int.log_natCast, Nat.log2_eq_log_two]

theorem le_scale_iff {num den : Nat} (hden : den ≠ 0) (k : Nat) (e : Int) :
    2 ^ k ≤ (scale num den e).1 ↔ (2 : ℚ) ^ (k + e) ≤ num / den := by
  have hd : 0 < den := Nat.pos_of_ne_zero hden
  have hdq : (0 : ℚ) < den := Nat.cast_pos.mpr hd
  have hpos : 0 < den * 2 ^ e.toNat := Nat.mul_pos hd (Nat.two_pow_pos _)
  have hscale : (scale num den e).1 = num * 2 ^ (-e).toNat / (den * 2 ^ e.toNat) := rfl
  rw [hscale, Nat.le_div_iff_mul_le hpos, le_div_iff₀ hdq, two_zpow_add, two_zpow e, zpow_natCast,
    mul_div_assoc', div_mul_eq_mul_div, div_le_iff₀ (by positivity), ← Nat.cast_le (α := ℚ)]
  push_cast
  rw [mul_assoc (2 ^ k : ℚ), mul_comm (den : ℚ)]

theorem scale_lt_iff {num den : Nat} (hden : den ≠ 0) (k : Nat) (e : Int) :
    (scale num den e).1 < 2 ^ k ↔ (num : ℚ) / den < 2 ^ (k + e) := by
  rw [← not_le, le_scale_iff hden, not_le]

theorem log_quotient {num den : Nat} (hnum : num ≠ 0) (hden : den ≠ 0) :
    (num.log2 : Int) - den.log2 - 1 ≤ Int.log 2 ((num : ℚ) / den) ∧
      Int.log 2 ((num : ℚ) / den) ≤ (num.log2 : Int) - den.log2 := by
  have hn : (0 : ℚ) < num := Nat.cast_pos.mpr (Nat.pos_of_ne_zero hnum)
  have hd : (0 : ℚ) < den := Nat.cast_pos.mpr (Nat.pos_of_ne_zero hden)
  have hx := quotient_pos hnum hden
  have hnlow := (le_log_iff hn).mp (log_natCast num).ge
  have hnhigh := (log_lt_iff hn).mp (Int.lt_add_one_of_le (log_natCast num).le)
  have hdlow := (le_log_iff hd).mp (log_natCast den).ge
  have hdhigh := (log_lt_iff hd).mp (Int.lt_add_one_of_le (log_natCast den).le)
  constructor
  · rw [le_log_iff hx, le_div_iff₀ hd]
    calc (2 : ℚ) ^ ((num.log2 : Int) - den.log2 - 1) * den
        ≤ 2 ^ ((num.log2 : Int) - den.log2 - 1) * 2 ^ ((den.log2 : Int) + 1) :=
          mul_le_mul_of_nonneg_left hdhigh.le (two_zpow_pos _).le
      _ = 2 ^ (num.log2 : Int) := by rw [← two_zpow_add]; congr 1; ring
      _ ≤ num := hnlow
  · rw [← Int.lt_add_one_iff, log_lt_iff hx, div_lt_iff₀ hd]
    calc (num : ℚ) < 2 ^ ((num.log2 : Int) + 1) := hnhigh
      _ = 2 ^ ((num.log2 : Int) - den.log2 + 1) * 2 ^ (den.log2 : Int) := by
        rw [← two_zpow_add]; congr 1; ring
      _ ≤ 2 ^ ((num.log2 : Int) - den.log2 + 1) * den :=
          mul_le_mul_of_nonneg_left hdlow (two_zpow_pos _).le

/-- The exponent comes from the quotient. -/
theorem exponentFor_eq {num den : Nat} (hnum : num ≠ 0) (hden : den ≠ 0) :
    exponentFor num den = max leastExponent (Int.log 2 ((num : ℚ) / den) - 52) := by
  obtain ⟨hlow, hhigh⟩ := log_quotient hnum hden
  have hplace : ((52 : Nat) : Int) + ((num.log2 : Int) - den.log2 - 52) =
      (num.log2 : Int) - den.log2 := by omega
  have hguess : (scale num den ((num.log2 : Int) - den.log2 - 52)).1 < 2 ^ 52 ↔ _ :=
    scale_lt_iff hden 52 _
  rw [hplace, ← log_lt_iff (quotient_pos hnum hden)] at hguess
  simp only [exponentFor, Nat.pow_eq, hguess]
  congr 1
  split <;> omega

theorem scale_mul (num den : Nat) {c : Nat} (hc : c ≠ 0) (e : Int) :
    scale (num * c) (den * c) e =
      ((scale num den e).1, (scale num den e).2.1 * c, (scale num den e).2.2 * c) := by
  have hpos : 0 < c := Nat.pos_of_ne_zero hc
  simp only [scale, Nat.mul_right_comm _ c, Nat.mul_div_mul_right _ _ hpos, Nat.mul_mod_mul_right]

theorem nearestEven_mul (q rest d : Nat) {c : Nat} (hc : c ≠ 0) :
    nearestEven q (rest * c) (d * c) = nearestEven q rest d := by
  have hpos : 0 < c := Nat.pos_of_ne_zero hc
  simp only [nearestEven, ← Nat.mul_assoc, Nat.mul_lt_mul_right hpos, gt_iff_lt]

def nearest (num den : Nat) (e : Int) : Nat :=
  nearestEven (scale num den e).1 (scale num den e).2.1 (scale num den e).2.2

theorem round_eq (s : Bool) {num den q : Nat} {e : Int} (hnum : num ≠ 0)
    (he : exponentFor num den = e) (hq : nearest num den e = q) :
    round s num den =
      if q = 2 ^ 53 then
        if e + 1 > greatestExponent then .infinite s else .finite s (2 ^ 52) (e + 1)
      else if e > greatestExponent then .infinite s else .finite s q e := by
  rw [nearest] at hq
  rw [round, if_neg hnum, he]
  simp only [hq, Nat.pow_eq]
  by_cases hfull : q = 2 ^ 53
  · simp only [if_pos hfull]
  · simp only [if_neg hfull]

/-- Another fraction of the same quotient is rounded alike. -/
theorem round_mul (s : Bool) (num : Nat) {den c : Nat} (hden : den ≠ 0) (hc : c ≠ 0) :
    round s (num * c) (den * c) = round s num den := by
  by_cases hnum : num = 0
  · simp [round, hnum]
  · have hquotient : ((num * c : Nat) : ℚ) / (den * c : Nat) = num / den := by
      push_cast
      exact mul_div_mul_right _ _ (Nat.cast_ne_zero.mpr hc)
    have hexponent : exponentFor (num * c) (den * c) = exponentFor num den := by
      rw [exponentFor_eq (Nat.mul_ne_zero hnum hc) (Nat.mul_ne_zero hden hc), exponentFor_eq hnum hden,
        hquotient]
    have hnearest (e : Int) : nearest (num * c) (den * c) e = nearest num den e := by
      rw [nearest, scale_mul num den hc, nearestEven_mul _ _ _ hc, nearest]
    rw [round_eq s (Nat.mul_ne_zero hnum hc) hexponent (hnearest _), round_eq s hnum rfl rfl]

theorem log_fraction {m : Nat} (hm : m ≠ 0) (e : Int) :
    Int.log 2 (((fraction m e).1 : ℚ) / (fraction m e).2) = m.log2 + e := by
  have hquotient : ((fraction m e).1 : ℚ) / (fraction m e).2 = m * 2 ^ e := by
    rw [two_zpow]
    simp only [fraction, Nat.pow_eq]
    push_cast
    rw [mul_div_assoc]
  have hm' : (0 : ℚ) < m := Nat.cast_pos.mpr (Nat.pos_of_ne_zero hm)
  have he := two_zpow_pos e
  rw [hquotient]
  apply le_antisymm
  · rw [← Int.lt_add_one_iff, log_lt_iff (mul_pos hm' he),
      show (m.log2 : Int) + e + 1 = m.log2 + 1 + e by ring, two_zpow_add, mul_lt_mul_iff_left₀ he]
    exact (log_lt_iff hm').mp (Int.lt_add_one_of_le (log_natCast m).le)
  · rw [le_log_iff (mul_pos hm' he), two_zpow_add, mul_le_mul_iff_left₀ he]
    exact (le_log_iff hm').mp (log_natCast m).ge

theorem nearest_fraction (m : Nat) (e : Int) : nearest (fraction m e).1 (fraction m e).2 e = m := by
  have hpos : 0 < 2 ^ e.toNat * 2 ^ (-e).toNat := Nat.mul_pos (Nat.two_pow_pos _) (Nat.two_pow_pos _)
  have hscale : scale (fraction m e).1 (fraction m e).2 e =
      (m, 0, 2 ^ e.toNat * 2 ^ (-e).toNat) := by
    simp only [scale, fraction, Nat.pow_eq, Nat.mul_assoc, Nat.mul_comm (2 ^ (-e).toNat),
      Nat.mul_div_cancel _ hpos, Nat.mul_mod_left]
  rw [nearest, hscale, nearestEven, if_pos (by omega)]

/-- A number in the form of rounding is rounded to itself. -/
theorem round_fraction (s : Bool) {m : Nat} {e : Int} (h : Normal m e) (hm : m ≠ 0) :
    round s (fraction m e).1 (fraction m e).2 = .finite s m e := by
  have hnum : (fraction m e).1 ≠ 0 := Nat.mul_ne_zero hm (Nat.two_pow_pos _).ne'
  have hden : (fraction m e).2 ≠ 0 := (Nat.two_pow_pos _).ne'
  have hexponent : exponentFor (fraction m e).1 (fraction m e).2 = e := by
    rw [exponentFor_eq hnum hden, log_fraction hm]
    have hlog : m.log2 < 53 := (Nat.log2_lt hm).mpr h.below
    have hleast := h.least
    cases h.full with
    | inl hfull =>
      have hfull : 52 ≤ m.log2 := (Nat.le_log2 hm).mpr hfull
      omega
    | inr hleast => omega
  rw [round_eq s hnum hexponent (nearest_fraction m e), if_neg h.below.ne,
    if_neg (not_lt.mpr h.greatest)]

theorem nearestEven_bounds (q rest d : Nat) :
    q ≤ nearestEven q rest d ∧ nearestEven q rest d ≤ q + 1 := by
  unfold nearestEven
  split
  · omega
  · split <;> omega

/-- What is rounded has the form of rounding. -/
theorem rounded_round (s : Bool) (num : Nat) {den : Nat} (hden : den ≠ 0) :
    Rounded (round s num den) := by
  by_cases hnum : num = 0
  · rw [round, if_pos hnum]
    exact .finite s ⟨by norm_num, le_rfl, by decide, .inr rfl⟩
  have hx := quotient_pos hnum hden
  have heq := exponentFor_eq hnum hden
  rw [round_eq s hnum rfl rfl]
  generalize exponentFor num den = e at heq
  have hleast : leastExponent ≤ e := heq ▸ le_max_left _ _
  have hbelow : (scale num den e).1 < 2 ^ 53 := by
    rw [scale_lt_iff hden, ← log_lt_iff hx]
    omega
  have hfull : 2 ^ 52 ≤ (scale num den e).1 ∨ e = leastExponent := by
    rw [le_scale_iff hden, ← le_log_iff hx]
    omega
  obtain ⟨hle, hge⟩ := nearestEven_bounds (scale num den e).1 (scale num den e).2.1
    (scale num den e).2.2
  rw [← nearest] at hle hge
  split
  case isTrue =>
    split
    case isTrue => exact .infinite s
    case isFalse hsmall => exact .finite s ⟨by norm_num, by omega, by omega, .inl le_rfl⟩
  case isFalse hq =>
    split
    case isTrue => exact .infinite s
    case isFalse hsmall =>
      exact .finite s ⟨by omega, hleast, by omega, hfull.imp (fun hfull => hfull.trans hle) id⟩

/-- The sign has no say in rounding. -/
theorem round_sign {num den m : Nat} {e : Int} (h : round false num den = .finite false m e) (s : Bool) :
    round s num den = .finite s m e := by
  by_cases hnum : num = 0
  · rw [round, if_pos hnum] at h ⊢
    cases h
    rfl
  · rw [round_eq _ hnum rfl rfl] at h ⊢
    split at h
    case isTrue hq =>
      rw [if_pos hq]
      split at h
      case isTrue => cases h
      case isFalse hsmall =>
        cases h
        rw [if_neg hsmall]
    case isFalse hq =>
      rw [if_neg hq]
      split at h
      case isTrue => cases h
      case isFalse hsmall =>
        cases h
        rw [if_neg hsmall]

end RouteDoc.Binary64
