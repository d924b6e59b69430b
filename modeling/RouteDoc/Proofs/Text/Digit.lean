import RouteDoc.Proofs.Comment.TagLine
import RouteDoc.Text.Digit
/-! Decimal digits are no blanks, and the ten digits of ASCII have their usual values. -/
namespace RouteDoc.Text

theorem isDigit_blankCodes : ∀ n ∈ Comment.blankCodes, isDigit (Char.ofNat n) = false := by
  decide +kernel

theorem isBlank_of_isDigit {c : Char} (h : isDigit c = true) : isBlank c = false :=
  Comment.isBlank_of_blankCodes isDigit_blankCodes h

theorem isDigit_of_digit? {c : Char} {d : Nat} (h : digit? c = some d) : isDigit c = true := by
  rw [isDigit, h]
  rfl

theorem digit?_of_ascii {c : Char} (h : c.isDigit = true) : digit? c = some (c.toNat - '0'.toNat) := by
  have hzeros : zeros = '0'.toNat :: zeros.tail := rfl
  have hfirst : (decide ('0'.toNat ≤ c.toNat) && decide (c.toNat < '0'.toNat + 10)) = true := by
    simp only [Char.isDigit, Bool.and_eq_true, decide_eq_true_eq, ge_iff_le,
      UInt32.le_iff_toNat_le] at h ⊢
    exact ⟨h.1, Nat.lt_succ_of_le h.2⟩
  rw [digit?, hzeros, List.find?_cons, hfirst]
  rfl

end RouteDoc.Text
