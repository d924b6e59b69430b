import RouteDoc.Proofs.Text.Page
/-! Lines hold no line ends, and texts without line ends that are joined by line feeds are cut apart
again. -/
namespace RouteDoc.Text

def OneLine (s : List Char) : Prop := ∀ c ∈ s, isLineEnd c = false

theorem OneLine.sublist {s t : List Char} (h : OneLine t) (hs : s.Sublist t) : OneLine s :=
  fun c hc => h c (hs.subset hc)

theorem trim_sublist (s : List Char) : (trim s).Sublist s :=
  (prefix_trimEnd _).sublist.trans (List.dropWhile_sublist isBlank)

/-- Induction on the pieces between separators. -/
theorem splitOn_induction (sep : Char) {P : List Char → Prop} (piece : ∀ l, sep ∉ l → P l)
    (cut : ∀ l s, sep ∉ l → P s → P (l ++ sep :: s)) (s : List Char) : P s := by
  by_cases h : sep ∈ s
  · obtain ⟨l, r, hs, hl⟩ := List.eq_append_cons_of_mem h
    have hlt : r.length < s.length := by
      rw [hs, List.length_append, List.length_cons]
      omega
    exact hs ▸ cut l r hl (splitOn_induction sep piece cut r)
  · exact piece s h
termination_by s.length

theorem not_mem_of_mem_splitOn {sep : Char} {s l : List Char} (hl : l ∈ s.splitOn sep) : sep ∉ l := by
  induction s using splitOn_induction sep with
  | piece k hk =>
    rw [List.splitOn_eq_singleton hk, List.mem_singleton] at hl
    exact hl ▸ hk
  | cut k s hk ih =>
    rw [List.splitOn_append_cons_self_of_not_mem hk, List.mem_cons] at hl
    cases hl with
    | inl hl => exact hl ▸ hk
    | inr hl => exact ih hl

theorem exists_consLine (c : Char) (ls : List (List Char)) :
    ∃ l ms, consLine c ls = (c :: l) :: ms := by
  cases ls with
  | nil => exact ⟨[], [], rfl⟩
  | cons l ms => exact ⟨l, ms, rfl⟩

theorem lines_of_ink {c : Char} (hc : isLineEnd c = false) (r : List Char) :
    lines (c :: r) = consLine c (lines r) := by
  rw [lines.eq_3 c r, if_neg (by simp [hc])]
  rintro t rfl -
  exact absurd hc (by decide)

theorem oneLine_of_mem_lines {s l : List Char} (hl : l ∈ lines s) : OneLine l := by
  induction s using lines.induct generalizing l with
  | case1 => simp [lines] at hl
  | case2 r ih =>
    rw [lines, List.mem_cons] at hl
    rcases hl with rfl | hl
    · simp [OneLine]
    · exact ih hl
  | case3 c r hcr hc ih =>
    rw [lines.eq_3 c r hcr, if_pos hc, List.mem_cons] at hl
    rcases hl with rfl | hl
    · simp [OneLine]
    · exact ih hl
  | case4 c r hcr hc ih =>
    rw [lines.eq_3 c r hcr, if_neg hc] at hl
    have hc' : isLineEnd c = false := by simpa using hc
    cases hr : lines r with
    | nil =>
      rw [hr, consLine, List.mem_singleton] at hl
      subst hl
      simpa [OneLine] using hc'
    | cons m ms =>
      rw [hr, consLine, List.mem_cons] at hl
      rcases hl with rfl | hl
      · exact List.forall_mem_cons.mpr ⟨hc', ih (by simp [hr])⟩
      · exact ih (by simp [hr, hl])

theorem lines_of_oneLine {s : List Char} (h : OneLine s) (hne : s ≠ []) : lines s = [s] := by
  induction s with
  | nil => exact absurd rfl hne
  | cons c r ih =>
    rw [lines_of_ink (h c (by simp))]
    cases r with
    | nil => rfl
    | cons d t => rw [ih (fun e he => h e (List.mem_cons_of_mem c he)) (by simp)]; rfl

theorem lines_append_newline {a : List Char} (h : OneLine a) (s : List Char) :
    lines (a ++ '\n' :: s) = a :: lines s := by
  induction a with
  | nil => rw [List.nil_append, lines.eq_3 _ _ (by simp), if_pos (by decide)]
  | cons c r ih =>
    rw [List.cons_append, lines_of_ink (h c (by simp)),
      ih fun e he => h e (List.mem_cons_of_mem c he)]
    rfl

/-- Lines joined by line feeds are cut apart as they were, unless the last one is empty. -/
theorem lines_unlines {ls : List (List Char)} (h : ∀ l ∈ ls, OneLine l)
    (hlast : ∀ l ∈ ls.getLast?, l ≠ []) : lines (unlines ls) = ls := by
  induction ls with
  | nil => rfl
  | cons l ls ih =>
    cases ls with
    | nil =>
      have hl : l ≠ [] := hlast l (by simp)
      simpa [unlines] using lines_of_oneLine (h l (by simp)) hl
    | cons m ms =>
      have ht : lines (unlines (m :: ms)) = m :: ms :=
        ih (fun k hk => h k (List.mem_cons_of_mem l hk)) (by simpa using hlast)
      rw [unlines, List.intercalate_cons_cons, List.append_assoc, List.singleton_append,
        lines_append_newline (h l (by simp)), ← unlines, ht]

theorem last_ne_nil {z : List Char} (hz : z ≠ []) (ls : List (List Char)) :
    ∀ l ∈ (ls ++ [z]).getLast?, l ≠ [] := by
  intro l hl
  rw [List.getLast?_concat] at hl
  obtain rfl := Option.some.inj hl
  exact hz

theorem page_of_oneLine {s : List Char} (h : OneLine s) : page s = consLine? (words s) [] := by
  cases s with
  | nil => rfl
  | cons c r => rw [page_eq_wordsOfLines, lines_of_oneLine h (by simp)]; rfl

theorem mem_wordsOfLines {ls : List (List Char)} {l : List Char} (hl : l ∈ ls)
    (hw : words l ≠ []) : words l ∈ wordsOfLines ls := by
  induction ls with
  | nil => simp at hl
  | cons m ms ih =>
    rw [wordsOfLines]
    rcases List.mem_cons.mp hl with rfl | hl
    · simp [consLine?, hw]
    · cases hm : words m <;> simp [consLine?, ih hl]

theorem exists_of_mem_wordsOfLines {ls ws : List (List Char)} (h : ws ∈ wordsOfLines ls) :
    ∃ l ∈ ls, words l = ws := by
  induction ls with
  | nil => cases h
  | cons l ls ih =>
    have hmem : ws = words l ∨ ws ∈ wordsOfLines ls := by
      rw [wordsOfLines, consLine?] at h
      split at h
      case isTrue => exact .inr h
      case isFalse => exact List.mem_cons.mp h
    cases hmem with
    | inl hws => exact ⟨l, List.mem_cons_self, hws.symm⟩
    | inr hws =>
      obtain ⟨m, hm, hmws⟩ := ih hws
      exact ⟨m, List.mem_cons_of_mem l hm, hmws⟩

theorem page_eq_cons {s : List Char} (hs : Trimmed s) (hne : s ≠ []) :
    ∃ l ls, lines s = l :: ls ∧ page s = words l :: wordsOfLines ls := by
  cases s with
  | nil => exact absurd rfl hne
  | cons c r =>
    have hc : isBlank c = false := hs.head c rfl
    have hend : isLineEnd c = false := by
      cases h : isLineEnd c with
      | false => rfl
      | true => exact absurd (isBlank_of_isLineEnd h) (by simp [hc])
    obtain ⟨l, ms, hl⟩ := exists_consLine c (lines r)
    refine ⟨c :: l, ms, by rw [lines_of_ink hend, hl], ?_⟩
    rw [page_eq_wordsOfLines, lines_of_ink hend, hl, wordsOfLines, words, splitWords_ink hc]
    rfl

end RouteDoc.Text
