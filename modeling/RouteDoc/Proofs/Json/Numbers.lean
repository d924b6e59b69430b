import RouteDoc.Proofs.Json.Digits
/-! Numbers in JSON: a whole number with no zero in front of other digits, then a fraction, then an
exponent. The reader takes as much of a text as it can, so it reads a number where what follows ends
it. An integer of too many digits is refused, one with a fraction or an exponent is not. -/
namespace RouteDoc.Json

structure Digits (ds : List Char) : Prop where
  ne : ds ≠ []
  all : ∀ d ∈ ds, isDigit d = true

inductive Whole : List Char → Prop
  | zero : Whole ['0']
  | digits {ds : List Char} : Digits ds → ds.head? ≠ some '0' → Whole ds

inductive Fraction : List Char → List Char → Prop
  | none : Fraction [] []
  | digits {ds : List Char} : Digits ds → Fraction ds ('.' :: ds)

inductive Sign : Bool → List Char → Prop
  | none : Sign false []
  | plus : Sign false ['+']
  | minus : Sign true ['-']

inductive Exponent : Int → List Char → Prop
  | none : Exponent 0 []
  | digits {e : Char} {negative : Bool} {sign ds : List Char} : e = 'e' ∨ e = 'E' →
      Sign negative sign → Digits ds → Exponent (signed negative ds) (e :: (sign ++ ds))

inductive Number (negative : Bool) : Value → List Char → Prop
  | int {w : List Char} : Whole w → w.length ≤ Numeral.digitLimit →
      Number negative (.int (signed negative w)) w
  | float {w ds f e : List Char} {p : Int} : Whole w → Fraction ds f → Exponent p e → f ++ e ≠ [] →
      Number negative (.float (.ofDecimal negative (value (w ++ ds)) (p - ds.length))) (w ++ (f ++ e))

def NoDigit (r : List Char) : Prop := ∀ c ∈ r.head?, isDigit c = false

/-- Nothing comes next with which a number would go on. -/
structure Ends (r : List Char) : Prop where
  digit : NoDigit r
  fraction : ∀ ds f, Fraction ds f → f <+: r → f = []
  exponent : ∀ p e, Exponent p e → e <+: r → e = []

theorem Ends.nil : Ends [] where
  digit := by simp [NoDigit]
  fraction _ _ _ hpre := List.prefix_nil.mp hpre
  exponent _ _ _ hpre := List.prefix_nil.mp hpre

theorem Ends.cons {c : Char} (hdigit : isDigit c = false) (hpoint : c ≠ '.') (he : c ≠ 'e')
    (hE : c ≠ 'E') (r : List Char) : Ends (c :: r) where
  digit := by simpa [NoDigit] using hdigit
  fraction ds f hf hpre := by
    cases hf with
    | none => rfl
    | digits => exact absurd (List.cons_prefix_cons.mp hpre).1.symm hpoint
  exponent p e hexp hpre := by
    cases hexp with
    | none => rfl
    | digits hletter =>
      have hc := (List.cons_prefix_cons.mp hpre).1
      cases hletter with
      | inl h => exact absurd (hc.symm.trans h) he
      | inr h => exact absurd (hc.symm.trans h) hE

theorem spanDigits_append {ds r : List Char} (hds : ∀ d ∈ ds, isDigit d = true) (hr : NoDigit r) :
    spanDigits (ds ++ r) = (ds, r) := by
  have hspan : spanDigits r = ([], r) := by
    cases r with
    | nil => rfl
    | cons c r =>
      have hc : isDigit c = false := hr c rfl
      simp [spanDigits, hc]
  obtain ⟨htake, hdrop⟩ := Prod.mk.inj hspan
  rw [spanDigits, List.takeWhile_append_of_pos hds, List.dropWhile_append_of_pos hds, htake, hdrop,
    List.append_nil]

theorem exists_of_spanDigits (s : List Char) :
    ∃ ds r, spanDigits s = (ds, r) ∧ (∀ d ∈ ds, isDigit d = true) ∧ NoDigit r ∧ s = ds ++ r := by
  refine ⟨_, _, rfl, fun d hd => List.mem_takeWhile_imp hd, fun c hc => ?_,
    List.takeWhile_append_dropWhile.symm⟩
  have hhead := List.head?_dropWhile_not isDigit s
  rwa [hc] at hhead

theorem noDigit_iff {s : List Char} : NoDigit s ↔ ∀ ds, Digits ds → ¬ds <+: s := by
  constructor
  · intro h ds hds hpre
    obtain ⟨d, ds, rfl⟩ := List.exists_cons_of_ne_nil hds.ne
    obtain ⟨t, rfl⟩ := hpre
    have hd := hds.all d (by simp)
    rw [h d rfl] at hd
    cases hd
  · intro h c hc
    obtain ⟨r, rfl⟩ := List.head?_eq_some_iff.mp hc
    exact Bool.eq_false_iff.mpr fun hdigit =>
      h [c] ⟨by simp, by simpa using hdigit⟩ (List.prefix_append [c] r)

theorem spanDigits_isEmpty_iff {s : List Char} : (spanDigits s).1.isEmpty = true ↔ NoDigit s := by
  cases s with
  | nil => simp [spanDigits, NoDigit]
  | cons c r => cases hc : isDigit c <;> simp [spanDigits, NoDigit, hc]

theorem fraction?_eq_some_iff {s ds r : List Char} :
    fraction? s = some (ds, r) ↔ Digits ds ∧ NoDigit r ∧ s = '.' :: (ds ++ r) := by
  constructor
  · intro h
    unfold fraction? at h
    split at h
    case h_1 t =>
      obtain ⟨ds', r', hspan, hds, hr, rfl⟩ := exists_of_spanDigits t
      rw [hspan] at h
      split at h
      case isTrue => cases h
      case isFalse hne =>
        cases h
        exact ⟨⟨by simpa using hne, hds⟩, hr, rfl⟩
    case h_2 => cases h
  · rintro ⟨hds, hr, rfl⟩
    have hne : ¬ds.isEmpty = true := by simpa using hds.ne
    simp only [fraction?, spanDigits_append hds.all hr, if_neg hne]

theorem fraction?_eq_none_iff {s : List Char} :
    fraction? s = none ↔ ∀ ds f, Fraction ds f → f <+: s → f = [] := by
  constructor
  · rintro h ds _ hf ⟨t, rfl⟩
    cases hf with
    | none => rfl
    | digits hds =>
      have hempty : NoDigit (ds ++ t) := by
        rw [← spanDigits_isEmpty_iff]
        simpa [fraction?] using h
      exact absurd (List.prefix_append ds t) (noDigit_iff.mp hempty ds hds)
  · intro h
    rw [Option.eq_none_iff_forall_ne_some]
    rintro ⟨ds, r⟩ hsome
    obtain ⟨hds, -, rfl⟩ := fraction?_eq_some_iff.mp hsome
    cases h ds _ (.digits hds) (List.prefix_append _ r)

theorem exists_of_splitSign (s : List Char) :
    ∃ negative sign r, Numeral.splitSign s = (negative, r) ∧ Sign negative sign ∧ s = sign ++ r := by
  unfold Numeral.splitSign
  split
  case h_1 r => exact ⟨_, _, _, rfl, .minus, rfl⟩
  case h_2 r => exact ⟨_, _, _, rfl, .plus, rfl⟩
  case h_3 => exact ⟨_, _, _, rfl, .none, rfl⟩

theorem splitSign_append {negative : Bool} {sign r : List Char} (h : Sign negative sign)
    (hr : ¬NoDigit r) : Numeral.splitSign (sign ++ r) = (negative, r) := by
  cases h with
  | plus => rfl
  | minus => rfl
  | none =>
    rw [List.nil_append]
    unfold Numeral.splitSign
    split
    case h_1 => exact absurd (by simp [NoDigit]; decide) hr
    case h_2 => exact absurd (by simp [NoDigit]; decide) hr
    case h_3 => rfl

theorem exponent?_append {e : Char} (he : e = 'e' ∨ e = 'E') {negative : Bool} {sign : List Char}
    (hsign : Sign negative sign) {r : List Char} (hr : ¬NoDigit r) :
    exponent? (e :: (sign ++ r)) = some (negative, spanDigits r) := by
  rw [exponent?, if_pos he]
  simp only [splitSign_append hsign hr]
  exact if_neg (mt spanDigits_isEmpty_iff.mp hr)

theorem exponent?_eq_some {s ds r : List Char} {negative : Bool}
    (h : exponent? s = some (negative, ds, r)) :
    ∃ e, Exponent (signed negative ds) e ∧ e ≠ [] ∧ NoDigit r ∧ s = e ++ r := by
  cases s with
  | nil => cases h
  | cons c s =>
    rw [exponent?] at h
    split at h
    case isFalse => cases h
    case isTrue hc =>
      obtain ⟨negative', sign, t, hsplit, hsign, rfl⟩ := exists_of_splitSign s
      obtain ⟨ds', r', hspan, hds, hr, rfl⟩ := exists_of_spanDigits t
      simp only [hsplit, hspan] at h
      split at h
      case isTrue => cases h
      case isFalse hne =>
        cases h
        exact ⟨_, .digits hc hsign ⟨by simpa using hne, hds⟩, by simp, hr, by simp⟩

theorem not_noDigit_append {ds : List Char} (hds : Digits ds) (r : List Char) : ¬NoDigit (ds ++ r) :=
  fun h => noDigit_iff.mp h ds hds (List.prefix_append ds r)

theorem exponent?_eq_none_iff {s : List Char} :
    exponent? s = none ↔ ∀ p e, Exponent p e → e <+: s → e = [] := by
  constructor
  · rintro h _ _ he ⟨t, rfl⟩
    cases he with
    | none => rfl
    | digits hletter hsign hds =>
      rw [List.cons_append, List.append_assoc,
        exponent?_append hletter hsign (not_noDigit_append hds t)] at h
      cases h
  · intro h
    rw [Option.eq_none_iff_forall_ne_some]
    rintro ⟨negative, ds, r⟩ hsome
    obtain ⟨e, he, hne, -, rfl⟩ := exponent?_eq_some hsome
    exact hne (h _ e he (List.prefix_append e r))

theorem integerPart?_eq_some {s w r : List Char} (h : integerPart? s = some (w, r)) :
    Whole w ∧ s = w ++ r ∧ (w ≠ ['0'] → NoDigit r) := by
  unfold integerPart? at h
  split at h
  case h_1 =>
    cases h
    exact ⟨.zero, rfl, fun hne => absurd rfl hne⟩
  case h_2 hzero =>
    obtain ⟨ds, r', hspan, hds, hr, rfl⟩ := exists_of_spanDigits s
    rw [hspan] at h
    split at h
    case isTrue => cases h
    case isFalse hne =>
      cases h
      refine ⟨.digits ⟨by simpa using hne, hds⟩ fun hhead => ?_, rfl, fun _ => hr⟩
      obtain ⟨t, rfl⟩ := List.head?_eq_some_iff.mp hhead
      exact hzero _ rfl

theorem integerPart?_append {w r : List Char} (hw : Whole w) (hr : NoDigit r) :
    integerPart? (w ++ r) = some (w, r) := by
  cases hw with
  | zero => rfl
  | digits hds hhead =>
    obtain ⟨c, t, rfl⟩ := List.exists_cons_of_ne_nil hds.ne
    have hzero : c ≠ '0' := fun heq => hhead (congrArg some heq)
    rw [List.cons_append, integerPart?_of_ne_zero (hds.all c (by simp)) hzero, ← List.cons_append,
      spanDigits_append hds.all hr]

section
variable {negative : Bool} {s w r : List Char} (hwhole : integerPart? s = some (w, r))
include hwhole

theorem number_of_fraction {ds t : List Char} (hf : fraction? r = some (ds, t))
    (he : exponent? t = none) : number negative s =
      .ok (.float (.ofDecimal negative (value (w ++ ds)) (0 - ds.length)), t) := by
  simp only [number, hwhole, hf, Option.map_some, Option.getD_some, he]

theorem number_of_exponent {down : Bool} {ds t : List Char} (hf : fraction? r = none)
    (he : exponent? r = some (down, ds, t)) : number negative s = .ok (.float
      (.ofDecimal negative (value (w ++ [])) (signed down ds - ([] : List Char).length)), t) := by
  simp only [number, hwhole, hf, Option.map_none, Option.getD_none, he]
  cases down <;> rfl

theorem number_of_fraction_exponent {down : Bool} {ds ds' t t' : List Char}
    (hf : fraction? r = some (ds, t)) (he : exponent? t = some (down, ds', t')) :
    number negative s =
      .ok (.float (.ofDecimal negative (value (w ++ ds)) (signed down ds' - ds.length)), t') := by
  simp only [number, hwhole, hf, Option.map_some, Option.getD_some, he]
  cases down <;> rfl

/-- After its whole part a number ends, or a fraction or an exponent makes it a float. -/
theorem number_ends_or_float (negative : Bool) : (fraction? r = none ∧ exponent? r = none) ∨
    ∃ ds f p e t, Fraction ds f ∧ Exponent p e ∧ f ++ e ≠ [] ∧ r = f ++ (e ++ t) ∧
      number negative s =
        .ok (.float (.ofDecimal negative (value (w ++ ds)) (p - ds.length)), t) := by
  cases hf : fraction? r with
  | none =>
    cases he : exponent? r with
    | none => exact .inl ⟨rfl, rfl⟩
    | some q =>
      obtain ⟨e, hexp, hne, -, hr⟩ := exponent?_eq_some he
      exact .inr ⟨_, _, _, e, _, .none, hexp, hne, hr, number_of_exponent hwhole hf he⟩
  | some q =>
    obtain ⟨hds, -, hr⟩ := fraction?_eq_some_iff.mp hf
    cases he : exponent? q.2 with
    | none =>
      exact .inr ⟨_, _, _, [], _, .digits hds, .none, by simp, hr, number_of_fraction hwhole hf he⟩
    | some q' =>
      obtain ⟨e, hexp, -, -, hq⟩ := exponent?_eq_some he
      exact .inr ⟨_, _, _, e, _, .digits hds, hexp, by simp, by rw [hr, hq]; rfl,
        number_of_fraction_exponent hwhole hf he⟩

end

theorem number_eq_ok {negative : Bool} {v : Value} {s r : List Char}
    (h : number negative s = .ok (v, r)) : ∃ t, Number negative v t ∧ s = t ++ r := by
  cases hwhole : integerPart? s with
  | none =>
    simp only [number, hwhole] at h
    cases h
  | some p =>
    obtain ⟨hw, hs, -⟩ := integerPart?_eq_some hwhole
    obtain ⟨hf, he⟩ | ⟨ds, f, p, e, t, hfrac, hexp, hne, hr, hfloat⟩ :=
      number_ends_or_float hwhole negative
    · rw [number_of_whole hwhole hf he] at h
      split at h
      case isTrue => cases h
      case isFalse hlen =>
        cases h
        exact ⟨_, .int hw (Nat.le_of_not_lt hlen), hs⟩
    · rw [hfloat] at h
      cases h
      exact ⟨_, .float hw hfrac hexp hne, by rw [hs, hr]; simp⟩

/-- Beside texts that are no numbers, only too many digits fail. -/
theorem number_eq_error {negative : Bool} {s : List Char} {e : ReadError}
    (h : number negative s = .error e) (he : e ≠ .malformed) :
    e = .tooManyDigits ∧
      ∃ w r, Whole w ∧ Numeral.digitLimit < w.length ∧ Ends r ∧ s = w ++ r := by
  cases hwhole : integerPart? s with
  | none =>
    simp only [number, hwhole] at h
    exact absurd (Except.error.inj h).symm he
  | some p =>
    obtain ⟨hw, hs, hend⟩ := integerPart?_eq_some hwhole
    obtain ⟨hf, hexponent⟩ | ⟨ds, f, p, e, t, -, -, -, -, hfloat⟩ :=
      number_ends_or_float hwhole negative
    · rw [number_of_whole hwhole hf hexponent] at h
      split at h
      case isFalse => cases h
      case isTrue hlen =>
        have hne : p.1 ≠ ['0'] := by
          intro heq
          rw [heq] at hlen
          exact absurd hlen (by decide)
        exact ⟨(Except.error.inj h).symm, _, _, hw, hlen,
          ⟨hend hne, fraction?_eq_none_iff.mp hf, exponent?_eq_none_iff.mp hexponent⟩, hs⟩
    · rw [hfloat] at h
      cases h

theorem noDigit_of_letter {e : Char} (he : e = 'e' ∨ e = 'E') (r : List Char) : NoDigit (e :: r) := by
  intro c hc
  cases hc
  cases he with
  | inl h => exact h ▸ rfl
  | inr h => exact h ▸ rfl

theorem fraction?_of_letter {e : Char} (he : e = 'e' ∨ e = 'E') (r : List Char) :
    fraction? (e :: r) = none := by
  cases he with
  | inl h => exact h ▸ rfl
  | inr h => exact h ▸ rfl

/-- A number is read to its end. -/
theorem number_append {negative : Bool} {v : Value} {t r : List Char} (h : Number negative v t)
    (hr : Ends r) : number negative (t ++ r) = .ok (v, r) := by
  have hnoFraction := fraction?_eq_none_iff.mpr hr.fraction
  have hnoExponent := exponent?_eq_none_iff.mpr hr.exponent
  have hreadExponent {e : Char} {down : Bool} {sign ds : List Char} (he : e = 'e' ∨ e = 'E')
      (hsign : Sign down sign) (hds : Digits ds) :
      exponent? (e :: (sign ++ (ds ++ r))) = some (down, ds, r) := by
    rw [exponent?_append he hsign (not_noDigit_append hds r), spanDigits_append hds.all hr.digit]
  cases h with
  | int hw hlen =>
    rw [number_of_whole (integerPart?_append hw hr.digit) hnoFraction hnoExponent,
      if_neg (Nat.not_lt.mpr hlen)]
  | float hw hf he hne =>
    simp only [List.append_assoc]
    cases hf with
    | none =>
      cases he with
      | none => exact absurd rfl hne
      | digits hletter hsign hds =>
        simp only [List.nil_append, List.cons_append, List.append_assoc]
        exact number_of_exponent (integerPart?_append hw (noDigit_of_letter hletter _))
          (fraction?_of_letter hletter _) (hreadExponent hletter hsign hds)
    | digits hfds =>
      have hpoint (t : List Char) : NoDigit ('.' :: t) := by simp [NoDigit, isDigit]
      cases he with
      | none =>
        have hread := fraction?_eq_some_iff.mpr ⟨hfds, hr.digit, rfl⟩
        exact number_of_fraction (integerPart?_append hw (hpoint _)) hread hnoExponent
      | digits hletter hsign hds =>
        simp only [List.cons_append, List.append_assoc]
        exact number_of_fraction_exponent (integerPart?_append hw (hpoint _))
          (fraction?_eq_some_iff.mpr ⟨hfds, noDigit_of_letter hletter _, rfl⟩)
          (hreadExponent hletter hsign hds)

theorem number_of_overlong {negative : Bool} {w r : List Char} (hw : Whole w)
    (hlong : Numeral.digitLimit < w.length) (hr : Ends r) :
    number negative (w ++ r) = .error .tooManyDigits := by
  rw [number_of_whole (integerPart?_append hw hr.digit) (fraction?_eq_none_iff.mpr hr.fraction)
    (exponent?_eq_none_iff.mpr hr.exponent), if_pos hlong]

end RouteDoc.Json
