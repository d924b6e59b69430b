import Mathlib.Data.List.DropRight
import Mathlib.Data.Nat.Digits.Defs
import RouteDoc.Number.Numeral
import RouteDoc.Proofs.Json.Numbers
import RouteDoc.Proofs.Text.Digit
/-! Integers written as text. The spellings of an integer are given apart from the reader, as blanks, a sign
and a run of digits of any scripts with single underscores in it; the reader takes every spelling for its
integer and no other text for any. The decimal text of an integer is one of its spellings. -/
namespace RouteDoc.Numeral
open Text
open Json (Sign)

/-- Digits and the text that they are written as: single underscores may stand between two of them. -/
inductive DigitRun : List Nat → List Char → Prop where
  | single {c : Char} {d : Nat} (h : digit? c = some d) : DigitRun [d] [c]
  | next {c : Char} {d : Nat} {ds : List Nat} {s : List Char} (h : digit? c = some d)
      (hs : DigitRun ds s) : DigitRun (d :: ds) (c :: s)
  | spaced {c : Char} {d : Nat} {ds : List Nat} {s : List Char} (h : digit? c = some d)
      (hs : DigitRun ds s) : DigitRun (d :: ds) (c :: '_' :: s)

def signedValue (negative : Bool) (ds : List Nat) : Int :=
  if negative then -(Nat.ofDigits 10 ds.reverse : Nat) else (Nat.ofDigits 10 ds.reverse : Nat)

/-- The spellings of integers. A sign stands right in front of the digits, and blanks around both. -/
inductive Spells : Int → List Char → Prop where
  | intro {a sign s b : List Char} {negative : Bool} {ds : List Nat}
      (ha : ∀ c ∈ a, isSpace c = true) (hsign : Sign negative sign) (hs : DigitRun ds s)
      (hlimit : ds.length ≤ digitLimit) (hb : ∀ c ∈ b, isSpace c = true) :
      Spells (signedValue negative ds) (a ++ (sign ++ s) ++ b)

theorem DigitRun.ne_nil {ds : List Nat} {s : List Char} (h : DigitRun ds s) : s ≠ [] := by
  cases h <;> simp

theorem DigitRun.head {ds : List Nat} {s : List Char} (h : DigitRun ds s) :
    ∀ c ∈ s.head?, isDigit c = true := by
  cases h with
  | single h => simpa using isDigit_of_digit? h
  | next h => simpa using isDigit_of_digit? h
  | spaced h => simpa using isDigit_of_digit? h

theorem DigitRun.last {ds : List Nat} {s : List Char} (h : DigitRun ds s) :
    ∀ c ∈ s.getLast?, isDigit c = true := by
  induction h with
  | single h => simpa using isDigit_of_digit? h
  | @next c d ds s h hs ih => rwa [List.getLast?_cons_of_ne_nil hs.ne_nil]
  | @spaced c d ds s h hs ih =>
    rwa [List.getLast?_cons_of_ne_nil (by simp), List.getLast?_cons_of_ne_nil hs.ne_nil]

theorem ne_underscore {c : Char} {d : Nat} (h : digit? c = some d) : c ≠ '_' :=
  Json.ne_of_holds (isDigit_of_digit? h) (by decide)

inductive Continues : Bool → List Nat → List Char → Prop where
  | stop : Continues true [] []
  | run {after : Bool} {ds : List Nat} {s : List Char} (h : DigitRun ds s) : Continues after ds s
  | underscore {ds : List Nat} {s : List Char} (h : DigitRun ds s) : Continues true ds ('_' :: s)

theorem digitRun_digit {c : Char} {d : Nat} (h : digit? c = some d) (after : Bool) (s : List Char) :
    digitRun digit? after (c :: s) = (digitRun digit? true s).map (d :: ·) := by
  rw [digitRun, if_neg (ne_underscore h), h]
  rfl

theorem DigitRun.digitRun_eq {ds : List Nat} {s : List Char} (h : DigitRun ds s) (after : Bool) :
    digitRun digit? after s = some ds := by
  induction h generalizing after with
  | single h => rw [digitRun_digit h]; rfl
  | next h _ ih => rw [digitRun_digit h, ih]; rfl
  | spaced h _ ih => rw [digitRun_digit h, digitRun, if_pos rfl, if_pos rfl, ih]; rfl

theorem continues_of_digitRun {after : Bool} {ds : List Nat} {s : List Char}
    (h : digitRun digit? after s = some ds) : Continues after ds s := by
  induction s generalizing after ds with
  | nil =>
    cases after with
    | false => simp [digitRun] at h
    | true =>
      obtain rfl : [] = ds := by simpa [digitRun] using h
      exact .stop
  | cons c s ih =>
    by_cases hc : c = '_'
    · subst hc
      cases after with
      | false => simp [digitRun] at h
      | true =>
        rw [digitRun, if_pos rfl, if_pos rfl] at h
        cases ih h with
        | run hrun => exact .underscore hrun
    · rw [digitRun, if_neg hc] at h
      obtain ⟨d, hd, h⟩ := Option.bind_eq_some_iff.mp h
      obtain ⟨ds, hds, rfl⟩ := Option.map_eq_some_iff.mp h
      refine .run ?_
      cases ih hds with
      | stop => exact .single hd
      | run hrun => exact .next hd hrun
      | underscore hrun => exact .spaced hd hrun

theorem digitRun_eq_some_iff {ds : List Nat} {s : List Char} :
    digitRun digit? false s = some ds ↔ DigitRun ds s := by
  constructor
  · intro h
    cases continues_of_digitRun h with
    | run hrun => exact hrun
  · exact fun h => h.digitRun_eq false

theorem ofDigits_eq (ds : List Nat) : ofDigits 10 ds = Nat.ofDigits 10 ds.reverse := by
  have hstep : (fun n d : Nat => n * 10 + d) = fun n d => d + 10 * n := by
    funext n d
    omega
  rw [ofDigits, hstep, Nat.ofDigits_eq_foldr, List.foldr_reverse]
  rfl

theorem isSpace_of_isDigit {c : Char} (h : isDigit c = true) : isSpace c = false := by
  simp [isSpace, isBlank_of_isDigit h]

theorem exists_trimSpace (s : List Char) :
    ∃ a b, (∀ c ∈ a, isSpace c = true) ∧ (∀ c ∈ b, isSpace c = true) ∧ s = a ++ trimSpace s ++ b := by
  refine ⟨s.takeWhile isSpace, (s.dropWhile isSpace).rtakeWhile isSpace,
    fun c hc => List.mem_takeWhile_imp hc, fun c hc => List.mem_rtakeWhile_imp hc, ?_⟩
  rw [trimSpace, ← List.rdropWhile, List.append_assoc, List.rdropWhile_append_rtakeWhile,
    List.takeWhile_append_dropWhile]

theorem trimSpace_append {a s b : List Char} (ha : ∀ c ∈ a, isSpace c = true)
    (hb : ∀ c ∈ b, isSpace c = true) (hne : s ≠ []) (hhead : ∀ c ∈ s.head?, isSpace c = false)
    (hlast : ∀ c ∈ s.getLast?, isSpace c = false) : trimSpace (a ++ s ++ b) = s := by
  obtain ⟨c, r, hc⟩ := List.exists_cons_of_ne_nil hne
  have hstart : (a ++ s ++ b).dropWhile isSpace = s ++ b := by
    rw [List.append_assoc, List.dropWhile_append_of_pos ha, hc, List.cons_append,
      List.dropWhile_cons_of_neg (by simp [hhead c (by simp [hc])])]
  have hstop : s.rdropWhile isSpace = s :=
    List.rdropWhile_eq_self_iff.mpr fun hs => by simp [hlast _ (List.getLast_mem_getLast? hs)]
  rw [trimSpace, hstart, List.reverse_append,
    List.dropWhile_append_of_pos fun d hd => hb d (List.mem_reverse.mp hd), ← List.rdropWhile, hstop]

theorem splitSign_append {negative : Bool} {sign s : List Char} (hsign : Sign negative sign)
    {ds : List Nat} (hs : DigitRun ds s) : splitSign (sign ++ s) = (negative, s) := by
  cases hsign with
  | plus => rfl
  | minus => rfl
  | none =>
    rw [List.nil_append, splitSign.eq_def]
    split
    case h_1 => exact absurd (hs.head '-' rfl) (by decide)
    case h_2 => exact absurd (hs.head '+' rfl) (by decide)
    case h_3 => rfl

/-- No blank stands at the ends of a sign with digits. -/
theorem trimSpace_spelling {a sign s b : List Char} {negative : Bool} {ds : List Nat}
    (ha : ∀ c ∈ a, isSpace c = true) (hsign : Sign negative sign) (hs : DigitRun ds s)
    (hb : ∀ c ∈ b, isSpace c = true) : trimSpace (a ++ (sign ++ s) ++ b) = sign ++ s := by
  refine trimSpace_append ha hb (by simp [hs.ne_nil]) ?_ fun c hc => ?_
  · cases hsign with
    | none => exact fun c hc => isSpace_of_isDigit (hs.head c hc)
    | plus => simp [isSpace, isBlank]
    | minus => simp [isSpace, isBlank]
  · rw [List.getLast?_append_of_ne_nil sign hs.ne_nil] at hc
    exact isSpace_of_isDigit (hs.last c hc)

/-- The reader and the spellings agree on every text. -/
theorem integer?_eq_some_iff {s : List Char} {n : Int} : integer? s = some n ↔ Spells n s := by
  constructor
  · intro h
    obtain ⟨a, b, ha, hb, hs⟩ := exists_trimSpace s
    obtain ⟨negative, sign, r, hsplit, hsign, htrim⟩ := Json.exists_of_splitSign (trimSpace s)
    rw [integer?, hsplit] at h
    obtain ⟨ds, hds, h⟩ := Option.bind_eq_some_iff.mp h
    have hrun : DigitRun ds r := digitRun_eq_some_iff.mp hds
    split at h
    case isTrue => cases h
    case isFalse hlimit =>
      have hn : signedValue negative ds = n := by
        rw [signedValue, ← ofDigits_eq]
        exact Option.some.inj h
      rw [hs, htrim, ← hn]
      exact .intro ha hsign hrun (Nat.not_lt.mp hlimit) hb
  · rintro ⟨ha, hsign, hs, hlimit, hb⟩
    rw [integer?, trimSpace_spelling ha hsign hs hb, splitSign_append hsign hs]
    simp only [hs.digitRun_eq, Option.bind_some, if_neg (Nat.not_lt.mpr hlimit), signedValue, ofDigits_eq]

theorem digitRun_of_ascii {cs : List Char} (hne : cs ≠ []) (h : ∀ c ∈ cs, c.isDigit = true) :
    DigitRun (cs.map fun c => c.toNat - '0'.toNat) cs := by
  induction cs with
  | nil => exact absurd rfl hne
  | cons c cs ih =>
    have hc : digit? c = some (c.toNat - '0'.toNat) := digit?_of_ascii (h c (by simp))
    by_cases hcs : cs = []
    · rw [hcs]
      exact .single hc
    · exact .next hc (ih hcs fun d hd => h d (List.mem_cons_of_mem c hd))

/-- The decimal digits of a number, and the number that they are. -/
theorem exists_digitRun (n : Nat) :
    ∃ ds, DigitRun ds (Nat.toDigits 10 n) ∧ ds.length = (Nat.toDigits 10 n).length ∧
      Nat.ofDigits 10 ds.reverse = n := by
  have hdigits : ∀ c ∈ Nat.toDigits 10 n, c.isDigit = true := fun c hc =>
    Nat.isDigit_of_mem_toDigits (by decide) (by decide) hc
  refine ⟨_, digitRun_of_ascii Nat.toDigits_ne_nil hdigits, by simp, ?_⟩
  calc Nat.ofDigits 10 ((Nat.toDigits 10 n).map fun c => c.toNat - '0'.toNat).reverse
      = ((Nat.toDigits 10 n).map fun c => c.toNat - '0'.toNat).foldl (fun m d => m * 10 + d) 0 := by
        rw [← ofDigits_eq]
        rfl
    _ = Nat.ofDigitChars 10 (Nat.toDigits 10 n) 0 := by
        rw [List.foldl_map, Nat.ofDigitChars_eq_foldl]
        simp only [Nat.mul_comm]
    _ = n := Nat.ofDigitChars_ten_toDigits

theorem toList_toString (n : Int) : (toString n).toList =
    if n < 0 then '-' :: Nat.toDigits 10 n.natAbs else Nat.toDigits 10 n.natAbs := by
  cases n with
  | ofNat m =>
    rw [if_neg (by simp)]
    exact Nat.toList_repr
  | negSucc m =>
    have htext : toString (Int.negSucc m) = "-" ++ (m + 1).repr := rfl
    rw [if_pos (by simp), htext, String.toList_append, Nat.toList_repr]
    rfl

/-- The decimal text of an integer spells it. -/
theorem spells_toString {n : Int} (h : n.natAbs < 10 ^ digitLimit) : Spells n (toString n).toList := by
  obtain ⟨ds, hds, hlength, hvalue⟩ := exists_digitRun n.natAbs
  obtain ⟨sign, hsign, htext⟩ : ∃ sign, Sign (decide (n < 0)) sign ∧
      (toString n).toList = sign ++ Nat.toDigits 10 n.natAbs := by
    rw [toList_toString]
    by_cases h : n < 0
    · exact ⟨['-'], by simpa [h] using Sign.minus, by simp [h]⟩
    · exact ⟨[], by simpa [h] using Sign.none, by simp [h]⟩
  have hlimit : ds.length ≤ digitLimit := by
    rw [hlength]
    exact (Nat.length_toDigits_le_iff (by decide) (by decide)).mpr h
  have hn : signedValue (decide (n < 0)) ds = n := by
    simp only [signedValue, hvalue, decide_eq_true_eq]
    split <;> omega
  have hspells := Spells.intro (a := []) (b := []) (by simp) hsign hds hlimit (by simp)
  rwa [hn, List.nil_append, List.append_nil, ← htext] at hspells

end RouteDoc.Numeral
