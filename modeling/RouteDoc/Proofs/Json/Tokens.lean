import Mathlib.Data.List.TakeWhile
import RouteDoc.Json.Reader
import RouteDoc.Proofs.Outcome
/-! Spaces, words and strings in JSON, each said of a text and of what is left of it behind the token. -/
namespace RouteDoc.Json

structure ProperSuffix (r s : List Char) : Prop where
  suffix : r <:+ s
  length_lt : r.length < s.length

namespace ProperSuffix
variable {r s t : List Char}

theorem cons {c : Char} (h : r <:+ s) : ProperSuffix r (c :: s) :=
  ⟨h.trans (List.suffix_cons c s), Nat.lt_succ_of_le h.length_le⟩

theorem append (hne : t ≠ []) (r : List Char) : ProperSuffix r (t ++ r) := by
  obtain ⟨c, t, rfl⟩ := List.exists_cons_of_ne_nil hne
  exact .cons (List.suffix_append t r)

theorem trans_suffix (h : ProperSuffix r s) (hs : s <:+ t) : ProperSuffix r t :=
  ⟨h.suffix.trans hs, Nat.lt_of_lt_of_le h.length_lt hs.length_le⟩

end ProperSuffix

def Spaces (s r : List Char) : Prop := ∃ gap, (∀ c ∈ gap, isSpace c = true) ∧ s = gap ++ r

theorem spaces_skipSpace (s : List Char) : Spaces s (skipSpace s) :=
  ⟨s.takeWhile isSpace, fun _ hc => List.mem_takeWhile_imp hc, List.takeWhile_append_dropWhile.symm⟩

theorem Spaces.skipSpace_eq {s r : List Char} (h : Spaces s r) : skipSpace s = skipSpace r := by
  obtain ⟨gap, hgap, rfl⟩ := h
  exact List.dropWhile_append_of_pos hgap

theorem Spaces.skipSpace_cons {s r : List Char} {c : Char} (h : Spaces s (c :: r))
    (hc : isSpace c = false) : skipSpace s = c :: r := by
  rw [h.skipSpace_eq]
  exact List.dropWhile_cons_of_neg (by simp [hc])

theorem Spaces.suffix {s r : List Char} (h : Spaces s r) : r <:+ s := by
  obtain ⟨gap, -, rfl⟩ := h
  exact List.suffix_append gap r

inductive Word : Value → List Char → Prop
  | null : Word .null ['n', 'u', 'l', 'l']
  | true : Word (.bool true) ['t', 'r', 'u', 'e']
  | false : Word (.bool false) ['f', 'a', 'l', 's', 'e']
  | nan : Word (.float .nan) ['N', 'a', 'N']
  | infinity : Word (.float (.infinite false)) ['I', 'n', 'f', 'i', 'n', 'i', 't', 'y']

theorem afterWord?_eq_some_iff {w : String} {s r : List Char} :
    afterWord? w s = some r ↔ s = w.toList ++ r := by
  rw [afterWord?]
  split
  case isTrue h =>
    obtain ⟨t, rfl⟩ := List.isPrefixOf_iff_prefix.mp h
    simp [← String.length_toList, eq_comm]
  case isFalse h =>
    refine ⟨nofun, ?_⟩
    rintro rfl
    exact absurd (List.isPrefixOf_iff_prefix.mpr (List.prefix_append _ r)) h

theorem word_eq_ok {v : Value} {s r : List Char} (h : word s = .ok (v, r)) :
    ∃ w, Word v w ∧ s = w ++ r := by
  unfold word at h
  split at h
  case h_2 => cases h
  case h_1 p hp =>
    obtain ⟨⟨w, u⟩, hmem, hw⟩ := List.exists_of_findSome?_eq_some hp
    obtain ⟨t, ht, rfl⟩ := Option.map_eq_some_iff.mp hw
    cases h
    rw [afterWord?_eq_some_iff] at ht
    refine ⟨w.toList, ?_, ht⟩
    simp only [List.mem_cons, Prod.mk.injEq, List.not_mem_nil, or_false] at hmem
    rcases hmem with ⟨rfl, rfl⟩ | ⟨rfl, rfl⟩ | ⟨rfl, rfl⟩ | ⟨rfl, rfl⟩ | ⟨rfl, rfl⟩
    exacts [.null, .true, .false, .nan, .infinity]

theorem error_of_word {s : List Char} {e : ReadError} (h : word s = .error e) : e = .malformed := by
  unfold word at h
  split at h
  case h_1 => cases h
  case h_2 => exact (Except.error.inj h).symm

/-- The characters of a string, its text up to the closing mark, and the rest. -/
inductive Chars : List Char → List Char → List Char → Prop
  | close {r : List Char} : Chars [] ('"' :: r) r
  | plain {c : Char} {cs s r : List Char} : c ≠ '"' → c ≠ '\\' → 32 ≤ c.toNat → Chars cs s r →
      Chars (c :: cs) (c :: s) r
  | escape {e c : Char} {cs s r : List Char} : simpleEscape? e = some c → Chars cs s r →
      Chars (c :: cs) ('\\' :: e :: s) r
  | unit {c : Char} {cs s t r : List Char} : escapedUnit? s = some (c, t) → Chars cs t r →
      Chars (c :: cs) ('\\' :: 'u' :: s) r

theorem suffix_of_unit? {s r : List Char} {n : Nat} (h : unit? s = some (n, r)) : r <:+ s := by
  unfold unit? at h
  split at h
  case h_1 a b c d t =>
    simp only [Option.bind_eq_bind, Option.bind_eq_some_iff, Option.pure_def, Option.some.injEq,
      Prod.mk.injEq] at h
    obtain ⟨-, -, -, -, -, -, -, -, -, rfl⟩ := h
    exact List.suffix_append [a, b, c, d] t
  case h_2 => cases h

theorem suffix_of_escapedUnit? {s r : List Char} {c : Char} (h : escapedUnit? s = some (c, r)) :
    r <:+ s := by
  obtain ⟨⟨n, t⟩, hunit, ht⟩ := Option.map_eq_some_iff.mp h
  have hrest : r = t ∨ ∃ m u, t = '\\' :: 'u' :: u ∧ unit? u = some (m, r) := by
    simp only at ht
    split at ht
    case isFalse =>
      split at ht <;> exact .inl (Prod.mk.inj ht).2.symm
    case isTrue =>
      split at ht
      case h_2 => exact .inl (Prod.mk.inj ht).2.symm
      case h_1 u =>
        split at ht
        case h_2 => exact .inl (Prod.mk.inj ht).2.symm
        case h_1 m r' hlow =>
          split at ht
          case isTrue =>
            exact .inr ⟨m, u, rfl, (Prod.mk.inj ht).2 ▸ hlow⟩
          case isFalse => exact .inl (Prod.mk.inj ht).2.symm
  have hsuffix := suffix_of_unit? hunit
  obtain rfl | ⟨m, u, rfl, hlow⟩ := hrest
  · exact hsuffix
  · exact ((suffix_of_unit? hlow).trans (List.suffix_append ['\\', 'u'] u)).trans hsuffix

theorem Chars.properSuffix {cs s r : List Char} (h : Chars cs s r) : ProperSuffix r s := by
  induction h with
  | close => exact .cons List.suffix_rfl
  | plain _ _ _ _ ih => exact .cons ih.suffix
  | escape _ _ ih => exact .cons (ih.suffix.trans (List.suffix_cons _ _))
  | unit ht _ ih =>
    exact .cons ((ih.suffix.trans (suffix_of_escapedUnit? ht)).trans (List.suffix_cons _ _))

theorem readString_plain {c : Char} (hmark : c ≠ '"') (hslash : c ≠ '\\') (hc : 32 ≤ c.toNat)
    (n : Nat) (s : List Char) :
    readString (n + 1) (c :: s) = (readString n s).map fun (cs, r) => (c :: cs, r) := by
  rw [readString]
  · rw [if_neg (Nat.not_lt.mpr hc)]
  · exact fun heq => hmark heq
  · exact fun _ heq => absurd heq hslash
  · exact fun _ _ heq => absurd heq hslash

theorem readString_escape {e c : Char} (he : simpleEscape? e = some c) (n : Nat) (s : List Char) :
    readString (n + 1) ('\\' :: e :: s) = (readString n s).map fun (cs, r) => (c :: cs, r) := by
  rw [readString]
  · simp only [he]
  · rintro rfl
    cases he

theorem readString_unit {c : Char} {s t : List Char} (ht : escapedUnit? s = some (c, t)) (n : Nat) :
    readString (n + 1) ('\\' :: 'u' :: s) = (readString n t).map fun (cs, r) => (c :: cs, r) := by
  rw [readString]
  simp only [ht]

theorem readString_of_chars {cs s r : List Char} (h : Chars cs s r) {n : Nat} (hn : s.length < n) :
    readString n s = .ok (cs, r) := by
  induction h generalizing n with
  | close =>
    cases n with
    | zero => cases hn
    | succ n => rfl
  | plain hmark hslash hc _ ih =>
    cases n with
    | zero => cases hn
    | succ n =>
      rw [readString_plain hmark hslash hc, ih (Nat.lt_of_succ_lt_succ hn)]
      rfl
  | escape he _ ih =>
    cases n with
    | zero => cases hn
    | succ n =>
      rw [readString_escape he, ih (Nat.lt_of_succ_lt (Nat.lt_of_succ_lt_succ hn))]
      rfl
  | unit ht _ ih =>
    cases n with
    | zero => cases hn
    | succ n =>
      have hlen := (suffix_of_escapedUnit? ht).length_le
      simp only [List.length_cons] at hn
      rw [readString_unit ht, ih (by omega)]
      rfl

theorem chars_of_readString {n : Nat} {cs s r : List Char} (h : readString n s = .ok (cs, r)) :
    Chars cs s r := by
  induction n generalizing cs s with
  | zero => cases h
  | succ n ih =>
    unfold readString at h
    split at h
    case h_1 => cases h
    case h_2 =>
      cases h
      exact .close
    case h_3 t =>
      split at h
      case h_1 => cases h
      case h_2 c t' ht =>
        obtain ⟨⟨cs', r'⟩, hread, heq⟩ := map_eq_ok_iff.mp h
        cases heq
        exact .unit ht (ih hread)
    case h_4 e t hu =>
      split at h
      case h_1 => cases h
      case h_2 c he =>
        obtain ⟨⟨cs', r'⟩, hread, heq⟩ := map_eq_ok_iff.mp h
        cases heq
        exact .escape he (ih hread)
    case h_5 c t hmark hu hslash =>
      split at h
      case isTrue => cases h
      case isFalse hc =>
        obtain ⟨⟨cs', r'⟩, hread, heq⟩ := map_eq_ok_iff.mp h
        cases heq
        refine .plain hmark ?_ (Nat.le_of_not_lt hc) (ih hread)
        rintro rfl
        cases t with
        | nil =>
          cases n <;> cases hread
        | cons d t => exact hslash d t rfl rfl

theorem error_of_readString {n : Nat} {s : List Char} {e : ReadError}
    (h : readString n s = .error e) : e = .malformed := by
  induction n generalizing s with
  | zero => exact (Except.error.inj h).symm
  | succ n ih =>
    unfold readString at h
    split at h
    case h_1 => exact (Except.error.inj h).symm
    case h_2 => cases h
    case h_3 =>
      split at h
      case h_1 => exact (Except.error.inj h).symm
      case h_2 => exact ih (map_eq_error_iff.mp h)
    case h_4 =>
      split at h
      case h_1 => exact (Except.error.inj h).symm
      case h_2 => exact ih (map_eq_error_iff.mp h)
    case h_5 =>
      split at h
      case isTrue => exact (Except.error.inj h).symm
      case isFalse => exact ih (map_eq_error_iff.mp h)

end RouteDoc.Json
