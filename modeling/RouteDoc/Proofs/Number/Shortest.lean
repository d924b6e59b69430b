import Mathlib.Tactic.NormNum
import RouteDoc.Number.Shortest
import RouteDoc.Proofs.Number.Rounding
/-! The shortest decimal of a number reads back as the number. A power of ten may go from the digits to the
place of the point, so zeros at the end may be dropped; where no count of digits up to seventeen reads back,
all digits do. -/
namespace RouteDoc.Binary64

theorem length_toDigits_mul_ten {n : Nat} (h : n ≠ 0) :
    (Nat.toDigits 10 (n * 10)).length = (Nat.toDigits 10 n).length + 1 := by
  rw [Nat.toDigits_of_base_le (by decide) (by omega), Nat.mul_div_cancel n (by decide),
    List.length_append, List.length_singleton]

theorem ofDecimal_mul_ten (s : Bool) (digits : Nat) (power : Int) :
    ofDecimal s (digits * 10) power = ofDecimal s digits (power + 1) := by
  by_cases hdigits : digits = 0
  · simp [ofDecimal, hdigits]
  · have hround : round s (digits * 10 * 10 ^ power.toNat) (10 ^ (-power).toNat) =
        round s (digits * 10 ^ (power + 1).toNat) (10 ^ (-(power + 1)).toNat) := by
      obtain hpower | hpower := Int.lt_or_le power 0
      · have hnum : (power + 1).toNat = power.toNat := by omega
        have hden : (-power).toNat = (-(power + 1)).toNat + 1 := by omega
        rw [hnum, hden, Nat.pow_succ, Nat.mul_right_comm,
          round_mul s _ (Nat.pow_pos (by decide)).ne' (by decide)]
      · have hnum : (power + 1).toNat = power.toNat + 1 := by omega
        have hden : (-power).toNat = (-(power + 1)).toNat := by omega
        rw [hnum, hden, Nat.pow_succ, Nat.mul_assoc, Nat.mul_comm 10]
    have htop : (((Nat.toDigits 10 digits).length + 1 : Nat) : Int) + power =
        (Nat.toDigits 10 digits).length + (power + 1) := by omega
    simp only [ofDecimal, hdigits, Nat.mul_eq_zero, length_toDigits_mul_ten hdigits, htop, hround,
      Nat.pow_eq, or_false, OfNat.ofNat_ne_zero]

/-- A power of ten goes from the digits to the place of the point. -/
theorem ofDecimal_mul_pow (s : Bool) (digits k : Nat) (power : Int) :
    ofDecimal s (digits * 10 ^ k) power = ofDecimal s digits (power + k) := by
  induction k generalizing power with
  | zero => simp
  | succ k ih =>
    rw [Nat.pow_succ, ← Nat.mul_assoc, ofDecimal_mul_ten, ih]
    congr 1
    omega

theorem rounded_ofDecimal (s : Bool) (digits : Nat) (power : Int) :
    Rounded (ofDecimal s digits power) := by
  have hzero : Rounded (zero s) := .finite s ⟨by norm_num, le_rfl, by decide, .inr rfl⟩
  unfold ofDecimal
  dsimp only
  split
  · exact hzero
  · split
    · exact .infinite s
    · split
      · exact hzero
      · exact rounded_round s _ (Nat.pow_pos (by decide)).ne'

theorem ofDecimal_sign {digits m : Nat} {power e : Int}
    (h : ofDecimal false digits power = .finite false m e) (s : Bool) :
    ofDecimal s digits power = .finite s m e := by
  have hzero {s : Bool} (h : zero false = .finite false m e) : zero s = .finite s m e := by
    cases h
    rfl
  unfold ofDecimal at h ⊢
  dsimp only at h ⊢
  split
  case isTrue hdigits => exact hzero (by rwa [if_pos hdigits] at h)
  case isFalse hdigits =>
    rw [if_neg hdigits] at h
    split
    case isTrue hlarge =>
      rw [if_pos hlarge] at h
      cases h
    case isFalse hlarge =>
      rw [if_neg hlarge] at h
      split
      case isTrue hsmall => exact hzero (by rwa [if_pos hsmall] at h)
      case isFalse hsmall =>
        rw [if_neg hsmall] at h
        exact round_sign h s

theorem toDigits_bounds {n : Nat} (h : n ≠ 0) :
    10 ^ ((Nat.toDigits 10 n).length - 1) ≤ n ∧ n < 10 ^ (Nat.toDigits 10 n).length := by
  have hpos : 0 < (Nat.toDigits 10 n).length := Nat.length_toDigits_pos
  refine ⟨?_, (Nat.length_toDigits_le_iff (by decide) hpos).mp le_rfl⟩
  by_contra hlt
  by_cases hone : (Nat.toDigits 10 n).length - 1 = 0
  · rw [hone] at hlt
    omega
  · have hle := (Nat.length_toDigits_le_iff (b := 10) (by decide) (Nat.pos_of_ne_zero hone)).mpr
      (Nat.not_le.mp hlt)
    omega

/-- The digits of `m * 2 ^ i / 2 ^ k` stay in the range that is not settled by length. -/
theorem allDigits_top {m i k l : Nat} (hm : m ≠ 0) (hhigh : m * 2 ^ i < 10 ^ 310) (hk : k ≤ l)
    (hlow : 2 ^ l < 10 ^ 330) :
    let top := ((Nat.toDigits 10 (m * 2 ^ i * 5 ^ k)).length : Int) + -(k : Int)
    ¬top > 310 ∧ ¬top < -330 := by
  have hne : m * 2 ^ i * 5 ^ k ≠ 0 := by positivity
  obtain ⟨hleast, hgreatest⟩ := toDigits_bounds hne
  generalize (Nat.toDigits 10 (m * 2 ^ i * 5 ^ k)).length = len at hleast hgreatest
  constructor
  · intro htop
    have hlarge : 10 ^ (310 + k) ≤ m * 2 ^ i * 5 ^ k :=
      (Nat.pow_le_pow_right (by decide) (by omega)).trans hleast
    have hsmall : m * 2 ^ i * 5 ^ k < 10 ^ (310 + k) :=
      calc m * 2 ^ i * 5 ^ k < 10 ^ 310 * 10 ^ k :=
            Nat.mul_lt_mul_of_lt_of_le hhigh (Nat.pow_le_pow_left (by decide) k)
              (Nat.pow_pos (by decide))
        _ = 10 ^ (310 + k) := (pow_add 10 310 k).symm
    exact absurd hlarge (Nat.not_le.mpr hsmall)
  · intro htop
    have hmin : 5 ^ k ≤ m * 2 ^ i * 5 ^ k :=
      Nat.le_mul_of_pos_left _ (Nat.mul_pos (Nat.pos_of_ne_zero hm) (Nat.two_pow_pos i))
    have hscaled : 5 ^ k * 10 ^ 330 < 5 ^ k * 2 ^ k := by
      calc 5 ^ k * 10 ^ 330 < 10 ^ len * 10 ^ 330 :=
            mul_lt_mul_of_pos_right (hmin.trans_lt hgreatest) (by positivity)
        _ = 10 ^ (len + 330) := (pow_add 10 len 330).symm
        _ ≤ 10 ^ k := Nat.pow_le_pow_right (by decide) (by omega)
        _ = 5 ^ k * 2 ^ k := by rw [← Nat.mul_pow]
    have hmax : 2 ^ k ≤ 2 ^ l := Nat.pow_le_pow_right (by decide) hk
    exact absurd (Nat.lt_of_mul_lt_mul_left hscaled) (Nat.not_lt.mpr (hmax.trans hlow.le))

theorem ofDecimal_allDigits {m : Nat} {e : Int} (h : Normal m e) (hm : m ≠ 0) :
    let d := allDigits (fraction m e).1 (fraction m e).2
    ofDecimal false d.digits d.power = .finite false m e := by
  have hi : e.toNat ≤ greatestExponent.toNat := Int.toNat_le_toNat h.greatest
  have hhigh : m * 2 ^ e.toNat < 10 ^ 310 :=
    calc m * 2 ^ e.toNat < 2 ^ 53 * 2 ^ greatestExponent.toNat :=
          Nat.mul_lt_mul_of_lt_of_le h.below (Nat.pow_le_pow_right (by decide) hi)
            (Nat.two_pow_pos _)
      _ ≤ 10 ^ 310 := by decide +kernel
  have hk : (-e).toNat ≤ (-leastExponent).toNat := Int.toNat_le_toNat (Int.neg_le_neg h.least)
  have hlow : 2 ^ (-leastExponent).toNat < 10 ^ 330 := by decide +kernel
  have hlog : (fraction m e).2.log2 = (-e).toNat := Nat.log2_two_pow
  have hne : m * 2 ^ e.toNat * 5 ^ (-e).toNat ≠ 0 := by positivity
  obtain ⟨hlarge, hsmall⟩ := allDigits_top hm hhigh hk hlow
  have hden : (10 : Nat) ^ (-e).toNat = 2 ^ (-e).toNat * 5 ^ (-e).toNat := by rw [← Nat.mul_pow]
  have hnum : (fraction m e).1 = m * 2 ^ e.toNat := rfl
  have hplace : (-(-((-e).toNat : Int))).toNat = (-e).toNat := by omega
  have hzero : (-((-e).toNat : Int)).toNat = 0 := by omega
  simp only [allDigits, hlog, hnum, Nat.pow_eq, ofDecimal, if_neg hne, if_neg hlarge, if_neg hsmall,
    hplace, hzero, Nat.pow_zero, Nat.mul_one, hden]
  rw [round_mul false _ (Nat.two_pow_pos _).ne' (by positivity)]
  exact round_fraction false h hm

theorem search_readsBack {num den : Nat} (readsBack : Decimal → Bool)
    (h : readsBack (allDigits num den) = true) (count more : Nat) :
    readsBack (search num den readsBack count more) = true := by
  induction more generalizing count with
  | zero => exact h
  | succ more ih =>
    unfold search
    split
    case h_1 c r hcandidates =>
      have hmem : c ∈ candidates num den count readsBack := by simp [hcandidates]
      exact (List.mem_filter.mp hmem).2
    case h_2 => exact ih _

theorem ofDecimal_strip (s : Bool) (d : Decimal) (n : Nat) :
    ofDecimal s (d.strip n).digits (d.strip n).power = ofDecimal s d.digits d.power := by
  induction n generalizing d with
  | zero => rfl
  | succ n ih =>
    rw [Decimal.strip]
    split
    case isTrue hzero =>
      rw [ih, ← ofDecimal_mul_ten, Nat.div_mul_cancel (Nat.dvd_of_mod_eq_zero hzero.2)]
    case isFalse => rfl

theorem shortest_readsBack {m : Nat} {e : Int} (h : Normal m e) (s : Bool) :
    ofDecimal s (shortest m e).digits (shortest m e).power = .finite s m e := by
  rw [shortest]
  by_cases hm : m = 0
  · subst hm
    obtain rfl : e = leastExponent := h.full.resolve_left (by norm_num)
    rfl
  · have hall := ofDecimal_allDigits h hm
    have hsearch := search_readsBack (fun c => ofDecimal false c.digits c.power == .finite false m e)
      (by simpa using hall) 1 17
    rw [if_neg hm]
    simp only [ofDecimal_strip]
    exact ofDecimal_sign (by simpa using hsearch) s

end RouteDoc.Binary64
