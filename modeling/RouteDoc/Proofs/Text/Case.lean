import Mathlib.Data.List.Basic
import Mathlib.Data.Nat.Bitwise
import RouteDoc.Text.Case
/-! Upper case done twice. No character of an image has another image: the two sides of the table have no
code in common, which is seen on sets of codes written as the bits of numbers. -/
namespace RouteDoc.Text

def bitsOf : List Nat → Nat
  | [] => 0
  | n :: ns => 2 ^ n ||| bitsOf ns

theorem testBit_bitsOf (ns : List Nat) (n : Nat) : (bitsOf ns).testBit n = true ↔ n ∈ ns := by
  induction ns with
  | nil => simp [bitsOf]
  | cons m ns ih =>
    rw [bitsOf, Nat.testBit_or, Bool.or_eq_true, ih, Nat.testBit_two_pow, decide_eq_true_eq,
      List.mem_cons]
    exact or_congr eq_comm Iff.rfl

theorem not_mem_of_bitsOf {ms ns : List Nat} (h : bitsOf ms &&& bitsOf ns = 0) {n : Nat}
    (hn : n ∈ ns) : n ∉ ms := by
  intro hm
  have hbit : (bitsOf ms &&& bitsOf ns).testBit n = true := by
    rw [Nat.testBit_and, (testBit_bitsOf ms n).mpr hm, (testBit_bitsOf ns n).mpr hn]
    rfl
  simp [h] at hbit

def CaseRow.codes (r : CaseRow) : List Nat :=
  (List.range ((r.last - r.first) / r.step + 1)).map fun k => r.first + r.step * k

theorem CaseRow.mem_codes {r : CaseRow} {n : Nat} (h : r.holds n = true) : n ∈ r.codes := by
  simp only [holds, Bool.and_eq_true, decide_eq_true_eq, beq_iff_eq] at h
  obtain ⟨⟨hfirst, hlast⟩, hstep⟩ := h
  have hle : (n - r.first) / r.step ≤ (r.last - r.first) / r.step :=
    Nat.div_le_div_right (Nat.sub_le_sub_right hlast r.first)
  have hn : r.step * ((n - r.first) / r.step) = n - r.first :=
    Nat.mul_div_cancel' (Nat.dvd_of_mod_eq_zero hstep)
  exact List.mem_map.mpr ⟨_, List.mem_range.mpr (Nat.lt_succ_of_le hle), by rw [hn]; omega⟩

def asciiCodes : List Nat := List.range' 'a'.toNat 26

def movedCodes : List Nat :=
  asciiCodes ++ (upperExpansions.map (·.1) ++ upperRows.flatMap CaseRow.codes)

def imageCodes : List Nat :=
  upperExpansions.flatMap (·.2) ++
    upperRows.flatMap fun r => r.codes.map fun n : Nat => Int.toNat (n + r.offset)

theorem bitsOf_codes : bitsOf movedCodes &&& bitsOf (0 :: imageCodes) = 0 := by decide +kernel

/-- An ASCII character stays unless it is a small letter, and its image stays. -/
theorem upperChar_ascii : ∀ n ∈ List.range 128,
    (n ∉ asciiCodes → (Char.ofNat n).toUpper = Char.ofNat n) ∧
      upperChar (Char.ofNat n).toUpper = [(Char.ofNat n).toUpper] := by
  decide +kernel

theorem upperChar_of_not_mem {c : Char} (h : c.toNat ∉ movedCodes) : upperChar c = [c] := by
  simp only [movedCodes, List.mem_append, not_or, List.mem_map, List.mem_flatMap] at h
  obtain ⟨hascii, hexpansions, hrows⟩ := h
  rw [upperChar]
  by_cases hc : c.toNat < 128
  · have hupper := (upperChar_ascii c.toNat (List.mem_range.mpr hc)).1 hascii
    rw [Char.ofNat_toNat] at hupper
    rw [if_pos hc, hupper]
  · have hlookup : upperExpansions.lookup c.toNat = none :=
      List.lookup_eq_none_iff.mpr fun e he =>
        bne_iff_ne.mpr fun heq => hexpansions ⟨e, he, heq.symm⟩
    have hfind : upperRows.find? (·.holds c.toNat) = none :=
      List.find?_eq_none.mpr fun r hr hholds => hrows ⟨r, hr, CaseRow.mem_codes hholds⟩
    rw [if_neg hc, mapCase, hlookup, hfind]

theorem toNat_ofNat_or (n : Nat) : (Char.ofNat n).toNat = n ∨ (Char.ofNat n).toNat = 0 := by
  by_cases h : n.isValidChar
  · rw [Char.ofNat, dif_pos h]
    exact .inl rfl
  · rw [Char.ofNat, dif_neg h]
    exact .inr rfl

/-- A character of an image stays; a code beyond Unicode counts as zero, which stays as well. -/
theorem upperChar_of_mem_imageCodes {n : Nat} (h : n ∈ imageCodes) :
    upperChar (Char.ofNat n) = [Char.ofNat n] := by
  apply upperChar_of_not_mem
  apply not_mem_of_bitsOf bitsOf_codes
  rw [List.mem_cons]
  cases toNat_ofNat_or n with
  | inl hn => exact .inr (hn.symm ▸ h)
  | inr hn => exact .inl hn

theorem upperChar_of_mem {c d : Char} (h : d ∈ upperChar c) : upperChar d = [d] := by
  by_cases hc : c.toNat < 128
  · have hupper := (upperChar_ascii c.toNat (List.mem_range.mpr hc)).2
    rw [Char.ofNat_toNat] at hupper
    rw [upperChar, if_pos hc, List.mem_singleton] at h
    rw [h, hupper]
  · have hmap : upperChar c = mapCase upperRows upperExpansions c := by rw [upperChar, if_neg hc]
    rw [hmap] at h
    unfold mapCase at h hmap
    cases hlookup : upperExpansions.lookup c.toNat with
    | some image =>
      rw [hlookup] at h
      obtain ⟨n, hn, rfl⟩ := List.mem_map.mp h
      obtain ⟨front, behind, he, -⟩ := List.lookup_eq_some_iff.mp hlookup
      have hmem : (c.toNat, image) ∈ upperExpansions := by simp [he]
      exact upperChar_of_mem_imageCodes
        (List.mem_append_left _ (List.mem_flatMap.mpr ⟨_, hmem, hn⟩))
    | none =>
      cases hfind : upperRows.find? (·.holds c.toNat) with
      | some r =>
        simp only [hlookup, hfind, List.mem_singleton] at h
        have hholds : r.holds c.toNat = true := by simpa using List.find?_some hfind
        rw [h, CaseRow.image]
        exact upperChar_of_mem_imageCodes (List.mem_append_right _ (List.mem_flatMap.mpr
          ⟨r, List.mem_of_find?_eq_some hfind, List.mem_map_of_mem (CaseRow.mem_codes hholds)⟩))
      | none =>
        simp only [hlookup, hfind, List.mem_singleton] at h hmap
        rw [h, hmap]

theorem flatMap_upperChar (c : Char) : (upperChar c).flatMap upperChar = upperChar c := by
  have h : (upperChar c).flatMap upperChar = (upperChar c).flatMap fun d => [d] :=
    List.flatMap_congr fun d hd => upperChar_of_mem hd
  rw [h, List.flatMap_singleton']

/-- A text in upper case stays as it is. -/
theorem upper_upper (s : String) : upper (upper s) = upper s := by
  simp only [upper, String.toList_ofList, List.flatMap_assoc, flatMap_upperChar]

end RouteDoc.Text
