import RouteDoc.Proofs.Json.Numbers
import RouteDoc.Proofs.Number.Numeral
import RouteDoc.Proofs.Number.Shortest
/-! The texts of numbers are numbers in JSON: integers by their digits, and finite floating-point numbers
by the shortest digits that read back, with a point or an exponent. -/
namespace RouteDoc.Json
open Binary64 (Layout Normal Decimal)

theorem isDigit_of_ascii {c : Char} (h : c.isDigit = true) : isDigit c = true := by
  simpa [isDigit, Char.isDigit, Char.le_def] using h

theorem digits_toDigits (n : Nat) : Digits (Nat.toDigits 10 n) where
  ne := Nat.toDigits_ne_nil
  all _ hd := isDigit_of_ascii (Nat.isDigit_of_mem_toDigits (by decide) (by decide) hd)

theorem value_eq (ds : List Char) : value ds = Nat.ofDigitChars 10 ds 0 := by
  rw [value, Numeral.ofDigits, List.foldl_map, Nat.ofDigitChars_eq_foldl]
  simp only [Nat.mul_comm]

theorem value_toDigits (n : Nat) : value (Nat.toDigits 10 n) = n := by
  rw [value_eq, Nat.ofDigitChars_ten_toDigits]

theorem value_append_zeros (ds : List Char) (k : Nat) :
    value (ds ++ List.replicate k '0') = value ds * 10 ^ k := by
  induction k with
  | zero => simp
  | succ k ih =>
    rw [value_eq] at ih
    rw [List.replicate_succ', ← List.append_assoc, value_eq, Nat.ofDigitChars_append, ih, Nat.pow_succ,
      ← Nat.mul_assoc]
    simp [Nat.ofDigitChars_eq_foldl, Nat.mul_comm]

theorem value_zeros_append (k : Nat) (ds : List Char) :
    value (List.replicate k '0' ++ ds) = value ds := by
  induction k with
  | zero => rfl
  | succ k ih =>
    rw [List.replicate_succ, List.cons_append, ← ih]
    simp [value, Numeral.ofDigits]

theorem head?_toDigits {n : Nat} (h : n ≠ 0) : (Nat.toDigits 10 n).head? ≠ some '0' := by
  induction n using Nat.strong_induction_on with
  | _ n ih =>
    by_cases hn : n < 10
    · have hdigit : ∀ k < 10, k ≠ 0 → Nat.digitChar k ≠ '0' := by decide
      rw [Nat.toDigits_of_lt_base hn]
      simpa using hdigit n hn h
    · rw [Nat.toDigits_of_base_le (by decide) (by omega),
        List.head?_append_of_ne_nil _ Nat.toDigits_ne_nil]
      exact ih (n / 10) (by omega) (by omega)

theorem whole_toDigits (n : Nat) : Whole (Nat.toDigits 10 n) := by
  by_cases h : n = 0
  · rw [h]
    exact .zero
  · exact .digits (digits_toDigits n) (head?_toDigits h)

theorem Digits.append {ds es : List Char} (h : Digits ds) (hes : ∀ d ∈ es, isDigit d = true) :
    Digits (ds ++ es) where
  ne := by simp [h.ne]
  all d hd := by
    cases List.mem_append.mp hd with
    | inl hd => exact h.all d hd
    | inr hd => exact hes d hd

theorem Digits.prepend {ds es : List Char} (h : Digits ds) (hes : ∀ d ∈ es, isDigit d = true) :
    Digits (es ++ ds) where
  ne := by simp [h.ne]
  all d hd := by
    cases List.mem_append.mp hd with
    | inl hd => exact hes d hd
    | inr hd => exact h.all d hd

theorem isDigit_of_mem_zeros {k : Nat} {d : Char} (h : d ∈ List.replicate k '0') : isDigit d = true := by
  rw [List.eq_of_mem_replicate h]
  decide

inductive Signed : Value → List Char → Prop
  | plain {v : Value} {t : List Char} : Number false v t → Signed v t
  | negative {v : Value} {t : List Char} : Number true v t → Signed v ('-' :: t)

theorem signed_int {n : Int} (h : n.natAbs < 10 ^ Numeral.digitLimit) :
    Signed (.int n) (toString n).toList := by
  have hlen : (Nat.toDigits 10 n.natAbs).length ≤ Numeral.digitLimit :=
    (Nat.length_toDigits_le_iff (by decide) (by decide)).mpr h
  have hnumber (negative : Bool) : Number negative _ _ := .int (whole_toDigits n.natAbs) hlen
  simp only [signed, value_toDigits] at hnumber
  rw [Numeral.toList_toString]
  by_cases hneg : n < 0
  · have hn : -(n.natAbs : Int) = n := by omega
    have hnegative := hnumber true
    rw [if_pos rfl, hn] at hnegative
    rw [if_pos hneg]
    exact .negative hnegative
  · have hn : (n.natAbs : Int) = n := by omega
    have hplain := hnumber false
    rw [if_neg Bool.false_ne_true, hn] at hplain
    rw [if_neg hneg]
    exact .plain hplain

theorem Number.pointed {s : Bool} {w f : List Char} {n : Nat} {power : Int} (hw : Whole w)
    (hf : Digits f) (hn : value (w ++ f) = n) (hpower : -(f.length : Int) = power) :
    Number s (.float (.ofDecimal s n power)) (w ++ '.' :: f) := by
  have hnumber : Number s _ _ := .float hw (.digits hf) .none (by simp)
  rwa [Int.zero_sub, List.append_nil, hn, hpower] at hnumber

section
variable {ds : List Char} {n : Nat} {power : Int}

theorem number_pointFirst (s : Bool) (hdigits : Digits ds) (hvalue : value ds = n)
    (hplace : (ds.length : Int) + power ≤ 0) :
    Number s (.float (.ofDecimal s n power))
      ('0' :: '.' :: List.replicate (-(ds.length + power)).toNat '0' ++ ds) := by
  refine .pointed .zero (hdigits.prepend fun d => isDigit_of_mem_zeros) ?_ ?_
  · have hzeros := value_zeros_append ((-(ds.length + power)).toNat + 1) ds
    rwa [List.replicate_succ, List.cons_append, hvalue] at hzeros
  · change -((List.replicate (-(ds.length + power)).toNat '0' ++ ds).length : Int) = power
    rw [List.length_append, List.length_replicate]
    omega

/-- A zero stands behind the point. -/
theorem number_pointLast (s : Bool) (hdigits : Digits ds) (hvalue : value ds = n)
    (hhead : ds.head? ≠ some '0') (hplace : ds.length ≤ (ds.length + power).toNat) :
    Number s (.float (.ofDecimal s n power))
      (ds ++ List.replicate ((ds.length + power).toNat - ds.length) '0' ++ ['.', '0']) := by
  have hlen : 0 < ds.length := List.length_pos_iff.mpr hdigits.ne
  have hwhole : Whole (ds ++ List.replicate ((ds.length + power).toNat - ds.length) '0') :=
    .digits (hdigits.append fun d => isDigit_of_mem_zeros)
      (by rwa [List.head?_append_of_ne_nil _ hdigits.ne])
  have hpoint : Number s (.float (.ofDecimal s (n * 10 ^ (power.toNat + 1)) (-1)))
      ((ds ++ List.replicate ((ds.length + power).toNat - ds.length) '0') ++ '.' :: ['0']) := by
    refine .pointed hwhole ⟨by simp, by simp; decide⟩ ?_ (by simp)
    have hcount : (ds.length + power).toNat - ds.length = power.toNat := by omega
    rw [← hvalue, ← value_append_zeros, hcount, List.replicate_succ', List.append_assoc]
  have hpower : -1 + ((power.toNat + 1 : Nat) : Int) = power := by omega
  rwa [Binary64.ofDecimal_mul_pow, hpower] at hpoint

theorem number_pointInside (s : Bool) (hdigits : Digits ds) (hvalue : value ds = n)
    (hhead : ds.head? ≠ some '0') (hplace : 0 < (ds.length : Int) + power)
    (hlen : (ds.length + power).toNat < ds.length) :
    Number s (.float (.ofDecimal s n power))
      (ds.take (ds.length + power).toNat ++ '.' :: ds.drop (ds.length + power).toNat) := by
  have hsplit : ds.take (ds.length + power).toNat ++ ds.drop (ds.length + power).toNat = ds :=
    List.take_append_drop _ _
  refine .pointed (.digits ⟨?_, fun d hd => hdigits.all d (List.mem_of_mem_take hd)⟩ ?_)
    ⟨?_, fun d hd => hdigits.all d (List.mem_of_mem_drop hd)⟩ (by rw [hsplit, hvalue]) ?_
  · rw [ne_eq, List.take_eq_nil_iff]
    exact not_or.mpr ⟨by omega, hdigits.ne⟩
  · rwa [List.head?_take, if_neg (by omega)]
  · rw [ne_eq, List.drop_eq_nil_iff]
    omega
  · rw [List.length_drop]
    omega

end

theorem number_positional (s : Bool) {n : Nat} (hn : n ≠ 0) (power : Int) :
    Number s (.float (.ofDecimal s n power))
      (Layout.positional (Nat.toDigits 10 n) ((Nat.toDigits 10 n).length + power)) := by
  have hdigits := digits_toDigits n
  have hvalue := value_toDigits n
  have hhead := head?_toDigits hn
  rw [Layout.positional]
  split
  case isTrue hplace => exact number_pointFirst s hdigits hvalue hplace
  case isFalse hplace =>
    dsimp only
    split
    case isTrue hlen => exact number_pointLast s hdigits hvalue hhead hlen
    case isFalse hlen =>
      exact number_pointInside s hdigits hvalue hhead (Int.not_le.mp hplace) (Nat.not_le.mp hlen)

theorem exponent_padded (e : Int) :
    Exponent e ('e' :: (if e < 0 then '-' else '+') ::
      (List.replicate (2 - (Nat.toDigits 10 e.natAbs).length) '0' ++ Nat.toDigits 10 e.natAbs)) := by
  have hpadded : Digits (List.replicate (2 - (Nat.toDigits 10 e.natAbs).length) '0' ++
      Nat.toDigits 10 e.natAbs) := (digits_toDigits e.natAbs).prepend fun d => isDigit_of_mem_zeros
  by_cases hneg : e < 0
  · have hsigned := Exponent.digits (.inl rfl) .minus hpadded
    have hvalue : -(e.natAbs : Int) = e := by omega
    rw [signed, if_pos rfl, value_zeros_append, value_toDigits, hvalue] at hsigned
    rwa [if_pos hneg]
  · have hsigned := Exponent.digits (.inl rfl) .plus hpadded
    have hvalue : (e.natAbs : Int) = e := by omega
    rw [signed, if_neg Bool.false_ne_true, value_zeros_append, value_toDigits, hvalue] at hsigned
    rwa [if_neg hneg]

/-- A digit, the others behind a point, and the exponent. -/
theorem number_scientific (s : Bool) {n : Nat} (hn : n ≠ 0) (power : Int) :
    Number s (.float (.ofDecimal s n power)) (Binary64.plainLayout.scientific (Nat.toDigits 10 n)
      ((Nat.toDigits 10 n).length + power)) := by
  have hdigits := digits_toDigits n
  have hvalue := value_toDigits n
  have hhead := head?_toDigits hn
  generalize Nat.toDigits 10 n = ds at hdigits hvalue hhead
  obtain ⟨d, f, rfl⟩ := List.exists_cons_of_ne_nil hdigits.ne
  have hwhole : Whole [d] := .digits ⟨by simp, by simpa using hdigits.all d (by simp)⟩ hhead
  obtain ⟨e, he⟩ : ∃ e : Int, ((d :: f).length + power) - 1 = e := ⟨_, rfl⟩
  have hexponent := exponent_padded e
  rw [Layout.scientific, he]
  cases f with
  | nil =>
    have hnumber : Number s _ _ := .float hwhole .none hexponent (by simp)
    have hpower : e - (([] : List Char).length : Int) = power := by
      simp at he ⊢
      omega
    rw [List.append_nil, hvalue, hpower] at hnumber
    exact hnumber
  | cons c f =>
    have hfraction : Digits (c :: f) := ⟨by simp, fun x hx => hdigits.all x (List.mem_cons_of_mem d hx)⟩
    have hnumber : Number s _ _ := .float hwhole (.digits hfraction) hexponent (by simp)
    have hpower : e - ((c :: f).length : Int) = power := by
      simp at he ⊢
      omega
    rw [List.singleton_append, hvalue, hpower] at hnumber
    simpa [Binary64.plainLayout] using hnumber

theorem signed_float {s : Bool} {m : Nat} {e : Int} (h : Normal m e) :
    Signed (.float (.finite s m e)) (Binary64.finite s m e).text.toList := by
  have hback := Binary64.shortest_readsBack h s
  have hbody : ∃ t, Number s (.float (.finite s m e)) t ∧
      (Binary64.finite s m e).text.toList = if s then '-' :: t else t := by
    by_cases hm : m = 0
    · subst hm
      obtain rfl : e = Binary64.leastExponent := h.full.resolve_left (by norm_num)
      have hzero : Number s (.float (.ofDecimal s 0 (-1))) (['0'] ++ '.' :: ['0']) :=
        .pointed .zero ⟨by simp, by simp; decide⟩ rfl rfl
      refine ⟨_, hzero, ?_⟩
      cases s <;> rfl
    · have hn : (Binary64.shortest m e).digits ≠ 0 := by
        intro hzero
        rw [hzero] at hback
        cases hback
        exact hm rfl
      have hpositional := number_positional s hn (Binary64.shortest m e).power
      have hscientific := number_scientific s hn (Binary64.shortest m e).power
      rw [hback] at hpositional hscientific
      rw [Binary64.text, Layout.text, String.toList_ofList]
      simp only [if_neg hm]
      refine ⟨_, ?_, rfl⟩
      split
      case isTrue => exact hpositional
      case isFalse => exact hscientific
  obtain ⟨t, ht, htext⟩ := hbody
  rw [htext]
  cases s with
  | false => exact .plain ht
  | true => exact .negative ht

end RouteDoc.Json
