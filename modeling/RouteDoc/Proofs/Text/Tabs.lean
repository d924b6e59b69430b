import RouteDoc.Proofs.Text.LineFeeds
/-! Tabs written as spaces. A line feed puts the column back to the start, so a text is expanded line by
line; expansion keeps the words of a text and all of its characters but tabs. -/
namespace RouteDoc.Text

def FeedsOnly (s : List Char) : Prop := ∀ c ∈ s, isLineEnd c = true → c = '\n'

instance (s : List Char) : Decidable (FeedsOnly s) :=
  decidable_of_iff (s.all (fun c => !isLineEnd c || c == '\n') = true) <| by
    simp [FeedsOnly, imp_iff_not_or]

theorem FeedsOnly.append_feed {s t : List Char} (hs : FeedsOnly s) (ht : FeedsOnly t) :
    FeedsOnly (s ++ '\n' :: t) :=
  List.forall_mem_append.mpr ⟨hs, List.forall_mem_cons.mpr ⟨fun _ => rfl, ht⟩⟩

theorem FeedsOnly.sublist {s t : List Char} (ht : FeedsOnly t) (h : s.Sublist t) : FeedsOnly s :=
  fun c hc => ht c (h.subset hc)

theorem FeedsOnly.oneLine {s : List Char} (hs : FeedsOnly s) (h : '\n' ∉ s) : OneLine s := by
  intro c hc
  cases hend : isLineEnd c with
  | false => rfl
  | true => exact absurd (hs c hc hend ▸ hc) h

/-- The first line of a text is what stands in front of its first line feed. -/
theorem head?_lines {s : List Char} (hs : FeedsOnly s) (hne : s ≠ []) :
    (lines s).head? = (s.splitOn '\n').head? := by
  by_cases h : '\n' ∈ s
  · obtain ⟨a, b, rfl, ha⟩ := List.eq_append_cons_of_mem h
    have hline : OneLine a := (hs.sublist (List.sublist_append_left _ _)).oneLine ha
    rw [lines_append_newline hline, List.splitOn_append_cons_self_of_not_mem ha]
    rfl
  · rw [lines_of_oneLine (hs.oneLine h) hne, List.splitOn_eq_singleton h]

theorem mem_expandTabs {column : Nat} {s : List Char} {c : Char} (h : c ∈ expandTabs column s) :
    c ∈ s ∨ c = ' ' := by
  induction s generalizing column with
  | nil => simp [expandTabs] at h
  | cons d r ih =>
    rw [expandTabs] at h
    split at h
    case isTrue =>
      cases List.mem_append.mp h with
      | inl h => exact .inr (List.mem_replicate.mp h).2
      | inr h => exact (ih h).imp_left (List.mem_cons_of_mem d)
    case isFalse =>
      cases List.mem_cons.mp h with
      | inl h => exact .inl (by simp [h])
      | inr h => exact (ih h).imp_left (List.mem_cons_of_mem d)

theorem AllBlank.expandTabs {s : List Char} (hs : AllBlank s) (column : Nat) :
    AllBlank (expandTabs column s) := by
  intro c hc
  cases mem_expandTabs hc with
  | inl hc => exact hs c hc
  | inr hc => rw [hc]; rfl

theorem FeedsOnly.expandTabs {s : List Char} (hs : FeedsOnly s) (column : Nat) :
    PlainText (expandTabs column s) := by
  refine ⟨fun c hc hend => ?_, tab_not_mem_expandTabs column s⟩
  cases mem_expandTabs hc with
  | inl hc => exact hs c hc hend
  | inr hc => exact absurd (hc ▸ hend) (by decide)

theorem newline_not_mem_expandTabs {s : List Char} (h : '\n' ∉ s) (column : Nat) :
    '\n' ∉ expandTabs column s := by
  intro hmem
  cases mem_expandTabs hmem with
  | inl hmem => exact h hmem
  | inr hspace => exact absurd hspace (by decide)

/-- What stands behind a text is expanded from the column that the text leads to. -/
theorem exists_expandTabs_append (column : Nat) (a s : List Char) :
    ∃ k, expandTabs column (a ++ s) = expandTabs column a ++ expandTabs k s := by
  induction a generalizing column with
  | nil => exact ⟨column, rfl⟩
  | cons c r ih =>
    rw [List.cons_append, expandTabs, expandTabs]
    split
    case isTrue =>
      obtain ⟨k, hk⟩ := ih (column + (8 - column % 8))
      exact ⟨k, by rw [hk, List.append_assoc]⟩
    case isFalse =>
      obtain ⟨k, hk⟩ := ih (if c = '\n' ∨ c = '\r' then 0 else column + 1)
      exact ⟨k, by rw [hk, List.cons_append]⟩

theorem expandTabs_append_feed (column : Nat) (a s : List Char) :
    expandTabs column (a ++ '\n' :: s) = expandTabs column a ++ '\n' :: expandTabs 0 s := by
  obtain ⟨k, hk⟩ := exists_expandTabs_append column a ('\n' :: s)
  rw [hk]
  rfl

theorem splitOn_expandTabs (s : List Char) :
    (expandTabs 0 s).splitOn '\n' = (s.splitOn '\n').map (expandTabs 0) := by
  induction s using splitOn_induction '\n' with
  | piece l hl =>
    rw [List.splitOn_eq_singleton hl, List.splitOn_eq_singleton (newline_not_mem_expandTabs hl 0)]
    rfl
  | cut l s hl ih =>
    rw [expandTabs_append_feed, List.splitOn_append_cons_self_of_not_mem hl,
      List.splitOn_append_cons_self_of_not_mem (newline_not_mem_expandTabs hl 0), ih]
    rfl

theorem splitWords_expandTabs (column : Nat) (s : List Char) :
    splitWords (expandTabs column s) = splitWords s := by
  induction s generalizing column with
  | nil => rfl
  | cons c r ih =>
    rw [expandTabs]
    split
    case isTrue h =>
      have hne : List.replicate (8 - column % 8) ' ' ≠ [] := by
        rw [ne_eq, List.replicate_eq_nil_iff]
        omega
      rw [splitWords_blanks_append (allBlank_spaces _) hne, h, splitWords_blank rfl,
        words_congr (ih _)]
    case isFalse => exact splitWords_cons_congr c (ih _)

/-- Expansion is a part of cleaning. -/
theorem dedent_expandTabs (s : List Char) : dedent (expandTabs 0 s) = dedent s := by
  rw [dedent, expandTabs_of_noTab (tab_not_mem_expandTabs 0 s), dedent]

theorem map_trim_cutMargin (ls : List (List Char)) : (cutMargin ls).map trim = ls.map trim := by
  cases ls with
  | nil => rfl
  | cons l ls =>
    rw [cutMargin, List.map_cons, trim_trimStart, List.map_map, List.map_cons]
    exact congrArg (trim l :: ·) (List.map_congr_left fun m hm => trim_drop (allBlank_take_margin hm))

end RouteDoc.Text
