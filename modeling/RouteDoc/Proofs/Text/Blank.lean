import Mathlib.Data.List.DropRight
import RouteDoc.Text.Blank
import RouteDoc.Text.Lines
/-! Trimming cuts blanks and nothing else: a text is its trimmed form between two runs of blanks.
The ink of a text, the characters that are not blank, is what no trimming can touch. -/
namespace RouteDoc.Text

theorem isBlank_of_isLineEnd {c : Char} (h : isLineEnd c = true) : isBlank c = true := by
  simp only [isLineEnd, isBlank, Bool.or_eq_true, Bool.and_eq_true, decide_eq_true_eq,
    beq_iff_eq] at h ⊢
  omega

def AllBlank (s : List Char) : Prop := ∀ c ∈ s, isBlank c = true

theorem all_isBlank_iff {s : List Char} : s.all isBlank = true ↔ AllBlank s := List.all_eq_true

theorem AllBlank.append {a b : List Char} (ha : AllBlank a) (hb : AllBlank b) :
    AllBlank (a ++ b) := by
  intro c hc
  rcases List.mem_append.mp hc with h | h
  · exact ha c h
  · exact hb c h

theorem allBlank_cons {c : Char} {s : List Char} :
    AllBlank (c :: s) ↔ isBlank c = true ∧ AllBlank s := List.forall_mem_cons

theorem exists_trimStart (s : List Char) : ∃ a, AllBlank a ∧ s = a ++ trimStart s :=
  ⟨s.takeWhile isBlank, fun _ hc => List.mem_takeWhile_imp hc, List.takeWhile_append_dropWhile.symm⟩

theorem exists_trimEnd (s : List Char) : ∃ b, AllBlank b ∧ s = trimEnd s ++ b :=
  ⟨s.rtakeWhile isBlank, fun _ hc => List.mem_rtakeWhile_imp hc,
    List.rdropWhile_append_rtakeWhile.symm⟩

theorem exists_trim (s : List Char) :
    ∃ a b, AllBlank a ∧ AllBlank b ∧ s = a ++ trim s ++ b := by
  obtain ⟨a, ha, hs⟩ := exists_trimStart s
  obtain ⟨b, hb, ht⟩ := exists_trimEnd (trimStart s)
  refine ⟨a, b, ha, hb, ?_⟩
  rw [List.append_assoc, trim, ← ht, ← hs]

theorem trimStart_append {a : List Char} (ha : AllBlank a) (s : List Char) :
    trimStart (a ++ s) = trimStart s := List.dropWhile_append_of_pos ha

theorem trimEnd_append {b : List Char} (hb : AllBlank b) (s : List Char) :
    trimEnd (s ++ b) = trimEnd s := by
  rw [trimEnd, List.reverse_append,
    List.dropWhile_append_of_pos fun c hc => hb c (List.mem_reverse.mp hc)]
  rfl

theorem trimStart_eq_nil {s : List Char} : trimStart s = [] ↔ AllBlank s :=
  List.dropWhile_eq_nil_iff

theorem trimEnd_eq_nil {s : List Char} : trimEnd s = [] ↔ AllBlank s :=
  List.rdropWhile_eq_nil_iff

theorem trimStart_of_head {c : Char} (hc : isBlank c = false) (s : List Char) :
    trimStart (c :: s) = c :: s := List.dropWhile_cons_of_neg (by simp [hc])

theorem trimStart_of_blank {c : Char} (hc : isBlank c = true) (s : List Char) :
    trimStart (c :: s) = trimStart s := List.dropWhile_cons_of_pos hc

theorem trimEnd_of_last {c : Char} (hc : isBlank c = false) (s : List Char) :
    trimEnd (s ++ [c]) = s ++ [c] := List.rdropWhile_concat_neg isBlank s c (by simp [hc])

theorem inked_of_all {s : List Char} (h : s.all (!isBlank ·) = true) :
    ∀ c ∈ s, isBlank c = false := by
  simpa using h

structure Trimmed (s : List Char) : Prop where
  head : ∀ c ∈ s.head?, isBlank c = false
  last : ∀ c ∈ s.getLast?, isBlank c = false

instance (s : List Char) : Decidable (Trimmed s) :=
  decidable_of_iff (s.head?.all (!isBlank ·) = true ∧ s.getLast?.all (!isBlank ·) = true) <| by
    simp only [Option.all_eq_true, Bool.not_eq_true']
    exact ⟨fun h => ⟨h.1, h.2⟩, fun h => ⟨h.head, h.last⟩⟩

theorem trimmed_nil : Trimmed [] := ⟨by simp, by simp⟩

theorem Trimmed.trimStart_eq {s : List Char} (h : Trimmed s) : trimStart s = s := by
  cases s with
  | nil => rfl
  | cons c r => exact trimStart_of_head (h.head c rfl) r

theorem Trimmed.trimEnd_eq {s : List Char} (h : Trimmed s) : trimEnd s = s := by
  rcases List.eq_nil_or_concat' s with rfl | ⟨r, c, rfl⟩
  · rfl
  · exact trimEnd_of_last (h.last c (by simp)) r

theorem Trimmed.trim_eq {s : List Char} (h : Trimmed s) : trim s = s := by
  rw [trim, h.trimStart_eq, h.trimEnd_eq]

theorem last_append {s t : List Char} (ht : ∀ c ∈ t.getLast?, isBlank c = false)
    (hs : t = [] → ∀ c ∈ s.getLast?, isBlank c = false) :
    ∀ c ∈ (s ++ t).getLast?, isBlank c = false := by
  cases t with
  | nil => simpa using hs rfl
  | cons d r =>
    rw [List.getLast?_append_of_ne_nil s (by simp)]
    exact ht

theorem head_append {s t : List Char} (hs : ∀ c ∈ s.head?, isBlank c = true)
    (ht : ∀ c ∈ t.head?, isBlank c = true) : ∀ c ∈ (s ++ t).head?, isBlank c = true := by
  cases s with
  | nil => exact ht
  | cons d r => simpa using hs

theorem head_trimStart {s : List Char} {c : Char} (h : c ∈ (trimStart s).head?) :
    isBlank c = false := by
  have hn := List.head?_dropWhile_not isBlank s
  rw [← trimStart, Option.mem_def.mp h] at hn
  exact hn

theorem last_trimEnd {s : List Char} {c : Char} (h : c ∈ (trimEnd s).getLast?) :
    isBlank c = false := by
  have hr : c ∈ (trimStart s.reverse).head? := by
    rwa [trimStart, ← List.getLast?_reverse]
  exact head_trimStart hr

theorem prefix_trimEnd (s : List Char) : trimEnd s <+: s := List.rdropWhile_prefix isBlank s

theorem trimmed_trimEnd {s : List Char} (hs : ∀ c ∈ s.head?, isBlank c = false) :
    Trimmed (trimEnd s) := by
  refine ⟨fun c hc => ?_, fun c hc => last_trimEnd hc⟩
  obtain ⟨b, hb⟩ := prefix_trimEnd s
  apply hs
  rw [← hb, List.head?_append, Option.mem_def.mp hc]
  rfl

theorem trimmed_trim (s : List Char) : Trimmed (trim s) :=
  trimmed_trimEnd fun _ hc => head_trimStart hc

theorem trim_append {a b s : List Char} (ha : AllBlank a) (hb : AllBlank b) (hs : Trimmed s) :
    trim (a ++ s ++ b) = s := by
  rw [List.append_assoc, trim, trimStart_append ha]
  cases s with
  | nil => rw [List.nil_append, trimStart_eq_nil.mpr hb]; rfl
  | cons c r =>
    rw [List.cons_append, trimStart_of_head (hs.head c rfl), ← List.cons_append,
      trimEnd_append hb, hs.trimEnd_eq]

theorem trim_append_blanks {b : List Char} (hb : AllBlank b) (s : List Char) :
    trim (s ++ b) = trim s := by
  obtain ⟨a, b', ha, hb', hs⟩ := exists_trim s
  conv_lhs => rw [hs, List.append_assoc, trim_append ha (hb'.append hb) (trimmed_trim s)]

theorem trim_trimEnd (s : List Char) : trim (trimEnd s) = trim s := by
  obtain ⟨b, hb, hs⟩ := exists_trimEnd s
  conv_rhs => rw [hs, trim_append_blanks hb]

theorem trimEnd_cons_congr (c : Char) {s t : List Char} (h : trimEnd s = trimEnd t) :
    trimEnd (c :: s) = trimEnd (c :: t) := by
  have hcut (u : List Char) : trimEnd (c :: u) = trimEnd (c :: trimEnd u) := by
    obtain ⟨b, hb, hu⟩ := exists_trimEnd u
    conv_lhs => rw [hu, ← List.cons_append, trimEnd_append hb]
  rw [hcut s, h, ← hcut t]

def ink (s : List Char) : List Char := s.filter (!isBlank ·)

@[simp] theorem ink_nil : ink [] = [] := rfl

@[simp] theorem ink_append (a b : List Char) : ink (a ++ b) = ink a ++ ink b :=
  List.filter_append a b

theorem ink_cons (c : Char) (s : List Char) :
    ink (c :: s) = if isBlank c then ink s else c :: ink s := by
  cases h : isBlank c <;> simp [ink, h]

theorem AllBlank.ink_eq {s : List Char} (h : AllBlank s) : ink s = [] := by
  rw [ink, List.filter_eq_nil_iff]
  intro c hc
  simp [h c hc]

@[simp] theorem ink_trimStart (s : List Char) : ink (trimStart s) = ink s := by
  obtain ⟨a, ha, hs⟩ := exists_trimStart s
  conv_rhs => rw [hs, ink_append, ha.ink_eq, List.nil_append]

@[simp] theorem ink_trimEnd (s : List Char) : ink (trimEnd s) = ink s := by
  obtain ⟨b, hb, hs⟩ := exists_trimEnd s
  conv_rhs => rw [hs, ink_append, hb.ink_eq, List.append_nil]

@[simp] theorem ink_trim (s : List Char) : ink (trim s) = ink s := by
  rw [trim, ink_trimEnd, ink_trimStart]

/-- A separator of blanks adds no ink to the texts that it joins. -/
theorem ink_intercalate {sep : List Char} (h : AllBlank sep) (ls : List (List Char)) :
    ink (sep.intercalate ls) = ink ls.flatten := by
  induction ls with
  | nil => rfl
  | cons l ls ih =>
    cases ls with
    | nil => simp
    | cons m ms => rw [List.intercalate_cons_cons, ink_append, ink_append, ih, h.ink_eq]; simp

end RouteDoc.Text
