import RouteDoc.Proofs.Text.Lines
/-! Cleaning a text that has nothing to clean. Lines without tabs that start at the margin come back
as they were written, but for blanks at the end of the last one. -/
namespace RouteDoc.Text

theorem expandTabs_of_noTab {s : List Char} (h : '\t' ∉ s) (column : Nat) :
    expandTabs column s = s := by
  induction s generalizing column with
  | nil => rfl
  | cons c r ih =>
    obtain ⟨hc, hr⟩ : ¬( '\t' = c) ∧ '\t' ∉ r := by simpa using h
    rw [expandTabs, if_neg (Ne.symm hc), ih hr]

theorem trimEnd_append_inked {z : List Char} (hz : ¬AllBlank z) (s : List Char) :
    trimEnd (s ++ z) = s ++ trimEnd z := by
  obtain ⟨b, hb, hzb⟩ := exists_trimEnd z
  have hne : trimEnd z ≠ [] := mt trimEnd_eq_nil.mp hz
  obtain ⟨r, c, hrc⟩ : ∃ r c, trimEnd z = r ++ [c] := by
    rcases List.eq_nil_or_concat' (trimEnd z) with h | h
    · exact absurd h hne
    · exact h
  have hc : isBlank c = false := last_trimEnd (s := z) (by simp [hrc])
  conv_lhs => rw [hzb, ← List.append_assoc, trimEnd_append hb, hrc, ← List.append_assoc]
  rw [trimEnd_of_last hc, hrc, List.append_assoc]

theorem prefix_trimEnd_iff {p : List Char} (hp : ∀ c ∈ p.getLast?, isBlank c = false)
    {s : List Char} : p <+: trimEnd s ↔ p <+: s := by
  constructor
  · exact fun h => h.trans (prefix_trimEnd s)
  · rintro ⟨r, rfl⟩
    by_cases hr : AllBlank r
    · rw [trimEnd_append hr]
      cases List.eq_nil_or_concat' p with
      | inl h => rw [h]; exact List.nil_prefix
      | inr h =>
        obtain ⟨q, c, rfl⟩ := h
        exact ⟨[], by rw [List.append_nil, trimEnd_of_last (hp c (by simp))]⟩
    · rw [trimEnd_append_inked hr]
      exact List.prefix_append p _

theorem unlines_concat {ls : List (List Char)} (h : ls ≠ []) (z : List Char) :
    unlines (ls ++ [z]) = unlines ls ++ '\n' :: z := by
  induction ls with
  | nil => exact absurd rfl h
  | cons l ls ih =>
    cases ls with
    | nil => simp [unlines]
    | cons m ms =>
      have htail := ih (by simp)
      rw [unlines, List.cons_append, List.cons_append, List.intercalate_cons_cons,
        ← List.cons_append, ← unlines, htail, unlines, unlines, List.intercalate_cons_cons]
      simp

theorem unlines_cons_cons (l m : List Char) (ms : List (List Char)) :
    unlines (l :: m :: ms) = l ++ '\n' :: unlines (m :: ms) := by
  simp [unlines, List.intercalate_cons_cons]

theorem prefix_of_prefix_separator {p a s : List Char} {e : Char} (hp : e ∉ p)
    (h : p <+: a ++ e :: s) : p <+: a := by
  rcases Nat.lt_or_ge a.length p.length with hlt | hle
  · have ha : a ++ [e] <+: p :=
      List.prefix_of_prefix_length_le ⟨s, by simp⟩ h (by simpa using Nat.succ_le_of_lt hlt)
    exact absurd (ha.subset (by simp)) hp
  · exact List.prefix_of_prefix_length_le h (List.prefix_append a _) hle

theorem not_mem_unlines {c : Char} (hc : c ≠ '\n') {ls : List (List Char)}
    (h : ∀ l ∈ ls, c ∉ l) : c ∉ unlines ls := by
  induction ls with
  | nil => simp [unlines]
  | cons l ls ih =>
    cases ls with
    | nil => simpa [unlines] using h
    | cons m ms =>
      rw [unlines_cons_cons, List.mem_append, List.mem_cons]
      have ht := ih fun k hk => h k (List.mem_cons_of_mem l hk)
      simp [h l (by simp), hc, ht]

theorem trimEmpty_eq_self {ls : List (List Char)} (hhead : ∀ l ∈ ls.head?, l ≠ [])
    (hlast : ∀ l ∈ ls.getLast?, l ≠ []) : trimEmpty ls = ls := by
  have hdrop : ls.dropWhile List.isEmpty = ls := by
    cases ls with
    | nil => rfl
    | cons l ls => exact List.dropWhile_cons_of_neg (by simpa using hhead l rfl)
  rw [trimEmpty, hdrop, ← List.rdropWhile]
  rcases List.eq_nil_or_concat' ls with rfl | ⟨ms, l, rfl⟩
  · rfl
  · exact List.rdropWhile_concat_neg _ _ _ (by simpa using hlast l (by simp))

theorem indent_eq_zero {l : List Char} (h : ∀ c ∈ l.head?, isBlank c = false) : indent l = 0 := by
  cases l with
  | nil => rfl
  | cons c r => simp [indent, h c rfl]

theorem margin_eq_zero {ls : List (List Char)} {l : List Char} (hl : l ∈ ls) (hne : ¬AllBlank l)
    (h : ∀ c ∈ l.head?, isBlank c = false) : margin ls = 0 := by
  have hmem : 0 ∈ (ls.filter fun l => !l.all isBlank).map indent := by
    rw [← indent_eq_zero h]
    refine List.mem_map_of_mem (List.mem_filter.mpr ⟨hl, ?_⟩)
    simpa using mt all_isBlank_iff.mp hne
  rw [margin]
  cases hm : ((ls.filter fun l => !l.all isBlank).map indent).min? with
  | none => rfl
  | some m => exact Nat.le_zero.mp ((List.min?_eq_some_iff.mp hm).2 0 hmem)

/-- Lines that can be cleaned of nothing: no tabs and no line boundaries in them. -/
structure CleanLine (l : List Char) : Prop where
  oneLine : OneLine l
  noTab : '\t' ∉ l

instance (l : List Char) : Decidable (CleanLine l) :=
  decidable_of_iff (l.all (!isLineEnd ·) = true ∧ '\t' ∉ l) <| by
    simp only [List.all_eq_true, Bool.not_eq_true']
    exact ⟨fun h => ⟨h.1, h.2⟩, fun h => ⟨h.oneLine, h.noTab⟩⟩

namespace CleanLine

theorem newline_not_mem {l : List Char} (h : CleanLine l) : '\n' ∉ l :=
  fun hn => absurd (h.oneLine '\n' hn) (by decide)

theorem nil : CleanLine [] := ⟨by simp [OneLine], by simp⟩

theorem of_inked {s : List Char} (h : ∀ c ∈ s, isBlank c = false) : CleanLine s := by
  refine ⟨fun c hc => ?_, fun ht => absurd (h '\t' ht) (by decide)⟩
  cases hl : isLineEnd c with
  | false => rfl
  | true => exact absurd (isBlank_of_isLineEnd hl) (by simp [h c hc])

theorem append {s t : List Char} (hs : CleanLine s) (ht : CleanLine t) : CleanLine (s ++ t) := by
  refine ⟨fun c hc => ?_, by simp [hs.noTab, ht.noTab]⟩
  rcases List.mem_append.mp hc with h | h
  · exact hs.oneLine c h
  · exact ht.oneLine c h

theorem space {s : List Char} (hs : CleanLine s) : CleanLine (' ' :: s) :=
  append (s := [' ']) ⟨by simp [OneLine, isLineEnd], by simp⟩ hs

theorem sublist {s t : List Char} (ht : CleanLine t) (h : s.Sublist t) : CleanLine s :=
  ⟨ht.oneLine.sublist h, fun hc => ht.noTab (h.subset hc)⟩

end CleanLine

/-- Lines between two that start at the left edge keep their layout. -/
theorem dedent_unlines {first last : List Char} {mid : List (List Char)}
    (hclean : ∀ l ∈ first :: (mid ++ [last]), CleanLine l) (hfirst : Trimmed first)
    (hfirst' : first ≠ []) (hlast : Trimmed last) (hlast' : last ≠ []) :
    dedent (unlines (first :: (mid ++ [last]))) = unlines (first :: (mid ++ [last])) := by
  have htab : '\t' ∉ unlines (first :: (mid ++ [last])) :=
    not_mem_unlines (by decide) fun l hl => (hclean l hl).noTab
  have hsplit : (unlines (first :: (mid ++ [last]))).splitOn '\n' = first :: (mid ++ [last]) :=
    List.splitOn_intercalate '\n' (fun l hl => (hclean l hl).newline_not_mem) (by simp)
  have hblank : ¬AllBlank last := by
    rw [← trimStart_eq_nil, hlast.trimStart_eq]
    exact hlast'
  have hmargin : margin (mid ++ [last]) = 0 := margin_eq_zero (by simp) hblank hlast.head
  have hcut : cutMargin (first :: (mid ++ [last])) = first :: (mid ++ [last]) := by
    rw [cutMargin, hmargin, hfirst.trimStart_eq]
    simp
  have hends : ∀ l ∈ (first :: (mid ++ [last])).getLast?, l ≠ [] :=
    last_ne_nil hlast' (first :: mid)
  rw [dedent, expandTabs_of_noTab htab, hsplit, hcut,
    trimEmpty_eq_self (by simpa using hfirst') hends]

theorem trim_unlines {first last : List Char} (mid : List (List Char)) (hfirst : Trimmed first)
    (hfirst' : first ≠ []) (hlast : ¬AllBlank last) :
    trim (unlines (first :: (mid ++ [last]))) = unlines (first :: (mid ++ [trimEnd last])) := by
  obtain ⟨c, r, rfl⟩ := List.exists_cons_of_ne_nil hfirst'
  have hc : isBlank c = false := hfirst.head c rfl
  have hconcat (z : List Char) :
      unlines ((c :: r) :: (mid ++ [z])) = unlines ((c :: r) :: mid) ++ ['\n'] ++ z := by
    rw [← List.cons_append, unlines_concat (by simp)]
    simp
  have hstart : trimStart (unlines ((c :: r) :: (mid ++ [last]))) =
      unlines ((c :: r) :: (mid ++ [last])) := by
    cases mid ++ [last] with
    | nil => simpa [unlines] using trimStart_of_head hc r
    | cons m ms =>
      rw [unlines_cons_cons, List.cons_append]
      exact trimStart_of_head hc _
  rw [trim, hstart, hconcat, hconcat, trimEnd_append_inked hlast]

end RouteDoc.Text
