import RouteDoc.Proofs.Text.Margin
/-! What trimming and cleaning make of lines without tabs and line boundaries that are joined by line
feeds. Trimming cuts the blank lines at both ends, the blanks in front of the first line that is left
and those behind the last one; cleaning cuts the margin and the empty lines at the ends, and the lines
of the cleaned text are what it leaves. -/
namespace RouteDoc.Text

theorem allBlank_nil : AllBlank [] := by simp [AllBlank]

theorem AllBlank.sublist {s t : List Char} (ht : AllBlank t) (h : s.Sublist t) : AllBlank s :=
  fun c hc => ht c (h.subset hc)

theorem trim_eq_nil {s : List Char} : trim s = [] ↔ AllBlank s := by
  constructor
  · intro h
    obtain ⟨a, b, ha, hb, hs⟩ := exists_trim s
    rw [hs, h, List.append_nil]
    exact ha.append hb
  · intro h
    rw [trim, trimStart_eq_nil.mpr h]
    rfl

theorem allBlank_of_trim_eq {s t : List Char} (h : trim s = trim t) : AllBlank s ↔ AllBlank t := by
  rw [← trim_eq_nil, h, trim_eq_nil]

theorem allBlank_trimEnd {s : List Char} : AllBlank (trimEnd s) ↔ AllBlank s :=
  allBlank_of_trim_eq (trim_trimEnd s)

theorem trim_blanks_append {a : List Char} (ha : AllBlank a) (s : List Char) :
    trim (a ++ s) = trim s := by
  rw [trim, trimStart_append ha, trim]

theorem trim_trimStart (s : List Char) : trim (trimStart s) = trim s := by
  obtain ⟨a, ha, hs⟩ := exists_trimStart s
  conv_rhs => rw [hs, trim_blanks_append ha]

theorem trimEnd_trimEnd (s : List Char) : trimEnd (trimEnd s) = trimEnd s := by
  obtain ⟨b, hb, hs⟩ := exists_trimEnd s
  conv_rhs => rw [hs, trimEnd_append hb]

theorem trimEnd_trim (s : List Char) : trimEnd (trim s) = trim s := (trimmed_trim s).trimEnd_eq

theorem trimEnd_sublist (s : List Char) : (trimEnd s).Sublist s := (prefix_trimEnd s).sublist

theorem trimStart_sublist (s : List Char) : (trimStart s).Sublist s := List.dropWhile_sublist isBlank

theorem trimmed_of_inked_eq {s : List Char} (hs : Trimmed s) (hb : AllBlank s) : s = [] := by
  rw [← hs.trim_eq]
  exact trim_eq_nil.mpr hb

/-- Cutting at one end does not touch what is cut at the other. -/
theorem trimEnd_drop (n : Nat) (s : List Char) : trimEnd (s.drop n) = (trimEnd s).drop n := by
  obtain ⟨b, hb, hs⟩ := exists_trimEnd s
  have hb' : AllBlank (b.drop (n - (trimEnd s).length)) := hb.sublist (List.drop_sublist _ b)
  have hlast : trimEnd ((trimEnd s).drop n) = (trimEnd s).drop n := by
    rcases List.eq_nil_or_concat' ((trimEnd s).drop n) with h | ⟨r, c, h⟩
    · rw [h]
      rfl
    · have hc : isBlank c = false := by
        apply last_trimEnd (s := s)
        rw [← List.take_append_drop n (trimEnd s), h]
        simp
      rw [h, trimEnd_of_last hc]
  conv_lhs => rw [hs, List.drop_append, trimEnd_append hb', hlast]

theorem map_trimEnd_drop (n : Nat) (ls : List (List Char)) :
    (ls.map (·.drop n)).map trimEnd = (ls.map trimEnd).map (·.drop n) := by
  rw [List.map_map, List.map_map]
  exact List.map_congr_left fun l _ => trimEnd_drop n l

theorem trim_drop {n : Nat} {s : List Char} (h : AllBlank (s.take n)) : trim (s.drop n) = trim s := by
  conv_rhs => rw [← List.take_append_drop n s, trim_blanks_append h]

theorem allBlank_map_drop {ls : List (List Char)} (h : ∀ l ∈ ls, AllBlank l) (n : Nat) :
    ∀ l ∈ ls.map (·.drop n), AllBlank l := by
  intro l hl
  obtain ⟨k, hk, rfl⟩ := List.mem_map.mp hl
  exact (h k hk).sublist (List.drop_sublist n k)

theorem indent_append {a : List Char} (ha : AllBlank a) (s : List Char) :
    indent (a ++ s) = a.length + indent s := by
  rw [indent, List.takeWhile_append_of_pos ha, List.length_append, indent]

theorem indent_append_inked {a : List Char} (ha : AllBlank a) {s : List Char}
    (hs : ∀ c ∈ s.head?, isBlank c = false) : indent (a ++ s) = a.length := by
  rw [indent_append ha, indent_eq_zero hs, Nat.add_zero]

theorem indent_trimEnd {l : List Char} (h : ¬AllBlank l) : indent (trimEnd l) = indent l := by
  obtain ⟨b, hb, hl⟩ := exists_trimEnd l
  obtain ⟨a, ha, ht⟩ := exists_trimStart (trimEnd l)
  have hne : trimStart (trimEnd l) ≠ [] := fun hn => h (allBlank_trimEnd.mp (trimStart_eq_nil.mp hn))
  obtain ⟨c, r, hc⟩ := List.exists_cons_of_ne_nil hne
  have hink : isBlank c = false := head_trimStart (s := trimEnd l) (by simp [hc])
  rw [hc] at ht
  have hend : indent (trimEnd l) = a.length := by
    rw [ht, indent_append_inked ha (by simpa using hink)]
  rw [hend, hl, ht, List.append_assoc, indent_append_inked ha (by simpa using hink)]

theorem margin_congr {ls ms : List (List Char)} (h : ls.map trimEnd = ms.map trimEnd) :
    margin ls = margin ms := by
  have hmap (ks : List (List Char)) : ((ks.filter fun l => !l.all isBlank).map indent) =
      (((ks.map trimEnd).filter fun l => !l.all isBlank).map indent) := by
    induction ks with
    | nil => rfl
    | cons k ks ih =>
      rw [List.map_cons]
      by_cases hk : AllBlank k
      · have hk' := all_isBlank_iff.mpr hk
        have ht := all_isBlank_iff.mpr (allBlank_trimEnd.mpr hk)
        simpa [hk', ht] using ih
      · have hk' := mt all_isBlank_iff.mp hk
        have ht := mt all_isBlank_iff.mp (mt allBlank_trimEnd.mp hk)
        simpa [hk', ht, indent_trimEnd hk] using ih
  rw [margin, margin, hmap ls, hmap ms, h]

theorem filter_inked_eq_nil {bs : List (List Char)} (h : ∀ l ∈ bs, AllBlank l) :
    (bs.filter fun l => !l.all isBlank) = [] := by
  rw [List.filter_eq_nil_iff]
  intro l hl
  simpa using all_isBlank_iff.mpr (h l hl)

theorem margin_append_blank (ls : List (List Char)) {bs : List (List Char)}
    (h : ∀ l ∈ bs, AllBlank l) : margin (ls ++ bs) = margin ls := by
  rw [margin, List.filter_append, filter_inked_eq_nil h, List.append_nil, margin]

theorem margin_blank_append {bs : List (List Char)} (h : ∀ l ∈ bs, AllBlank l)
    (ls : List (List Char)) : margin (bs ++ ls) = margin ls := by
  rw [margin, List.filter_append, filter_inked_eq_nil h, List.nil_append, margin]

theorem mem_indents {ls : List (List Char)} {l : List Char} (hl : l ∈ ls) (hne : ¬AllBlank l) :
    indent l ∈ (ls.filter fun l => !l.all isBlank).map indent := by
  refine List.mem_map_of_mem (List.mem_filter.mpr ⟨hl, ?_⟩)
  simpa using mt all_isBlank_iff.mp hne

theorem margin_le {ls : List (List Char)} {l : List Char} (hl : l ∈ ls) (hne : ¬AllBlank l) :
    margin ls ≤ indent l := by
  have hmem := mem_indents hl hne
  rw [margin]
  cases hm : ((ls.filter fun l => !l.all isBlank).map indent).min? with
  | none => exact Nat.zero_le _
  | some m => exact (List.min?_eq_some_iff.mp hm).2 _ hmem

/-- A margin is the indentation of some line, if there is any text. -/
theorem exists_margin_eq {ls : List (List Char)} {l : List Char} (hl : l ∈ ls) (hne : ¬AllBlank l) :
    ∃ m ∈ ls, ¬AllBlank m ∧ margin ls = indent m := by
  have hmem := mem_indents hl hne
  cases hm : ((ls.filter fun l => !l.all isBlank).map indent).min? with
  | none => simp [List.min?_eq_none_iff.mp hm] at hmem
  | some n =>
    obtain ⟨m, hmf, hn⟩ := List.mem_map.mp (List.min?_eq_some_iff.mp hm).1
    obtain ⟨hms, hink⟩ := List.mem_filter.mp hmf
    refine ⟨m, hms, fun hb => ?_, by rw [margin, hm, Option.getD_some, hn]⟩
    simp [all_isBlank_iff.mpr hb] at hink

theorem margin_of_allBlank {ls : List (List Char)} (h : ∀ l ∈ ls, AllBlank l) : margin ls = 0 :=
  margin_append_blank [] h

theorem margin_of_trimmed {ls : List (List Char)} (h : ∀ l ∈ ls, Trimmed l) : margin ls = 0 := by
  by_cases hb : ∀ l ∈ ls, AllBlank l
  · exact margin_of_allBlank hb
  · push Not at hb
    obtain ⟨l, hl, hne⟩ := hb
    exact margin_eq_zero hl hne (h l hl).head

/-- A first line has no say in the margin when a later one is indented no deeper. -/
theorem margin_cons {first l : List Char} {after : List (List Char)} (hl : l ∈ after)
    (hne : ¬AllBlank l) (h : indent l ≤ indent first) :
    margin (first :: after) = margin after := by
  apply Nat.le_antisymm
  · obtain ⟨m, hm, hink, heq⟩ := exists_margin_eq hl hne
    rw [heq]
    exact margin_le (List.mem_cons_of_mem first hm) hink
  · obtain ⟨m, hm, hink, heq⟩ := exists_margin_eq (List.mem_cons_of_mem first hl) hne
    rw [heq]
    rcases List.mem_cons.mp hm with rfl | hm
    · have hle := margin_le hl hne
      omega
    · exact margin_le hm hink

theorem margin_shift {a : List Char} (ha : AllBlank a) {ls : List (List Char)} {l : List Char}
    (hl : l ∈ ls) (hne : ¬AllBlank l) : margin (ls.map (a ++ ·)) = a.length + margin ls := by
  have hinked {m : List Char} (hm : ¬AllBlank m) : ¬AllBlank (a ++ m) :=
    fun h => hm (h.sublist (List.sublist_append_right a m))
  apply Nat.le_antisymm
  · obtain ⟨m, hm, hink, heq⟩ := exists_margin_eq hl hne
    rw [heq, ← indent_append ha]
    exact margin_le (List.mem_map_of_mem hm) (hinked hink)
  · obtain ⟨m', hm', hink, heq⟩ := exists_margin_eq (List.mem_map_of_mem hl) (hinked hne)
    obtain ⟨m, hm, rfl⟩ := List.mem_map.mp hm'
    rw [heq, indent_append ha]
    have hle : margin ls ≤ indent m := margin_le hm fun h => hink (ha.append h)
    omega

/-- What stands in front of every line with ink is cut with the margin. -/
theorem map_drop_shift {a : List Char} (ha : AllBlank a) {ls : List (List Char)} {l : List Char}
    (hl : l ∈ ls) (hne : ¬AllBlank l) :
    (ls.map (a ++ ·)).map (·.drop (margin (ls.map (a ++ ·)))) = ls.map (·.drop (margin ls)) := by
  rw [margin_shift ha hl hne, List.map_map]
  exact List.map_congr_left fun m _ => List.drop_length_add_append (margin ls)

theorem unlines_cons_of_ne_nil (l : List Char) {ms : List (List Char)} (h : ms ≠ []) :
    unlines (l :: ms) = l ++ '\n' :: unlines ms := by
  obtain ⟨m, ms', rfl⟩ := List.exists_cons_of_ne_nil h
  exact unlines_cons_cons l m ms'

theorem unlines_append {ls ms : List (List Char)} (hls : ls ≠ []) (hms : ms ≠ []) :
    unlines (ls ++ ms) = unlines ls ++ '\n' :: unlines ms := by
  induction ls with
  | nil => exact absurd rfl hls
  | cons l ls ih =>
    rw [List.cons_append, unlines_cons_of_ne_nil l (by simp [hms])]
    by_cases h : ls = []
    · simp [h, unlines]
    · rw [ih h, unlines_cons_of_ne_nil l h, List.append_assoc, List.cons_append]

/-- Texts of several lines each are joined line by line. -/
theorem unlines_map_unlines {ts : List (List (List Char))} (h : ∀ t ∈ ts, t ≠ []) :
    unlines (ts.map unlines) = unlines ts.flatten := by
  induction ts with
  | nil => rfl
  | cons t ts ih =>
    have ht : t ≠ [] := h t (by simp)
    have hts : ∀ u ∈ ts, u ≠ [] := fun u hu => h u (List.mem_cons_of_mem t hu)
    cases ts with
    | nil => simp [unlines]
    | cons u us =>
      have hflat : (u :: us).flatten ≠ [] := by simp [hts u (by simp)]
      rw [List.map_cons, unlines_cons_of_ne_nil _ (by simp), ih hts, ← unlines_append ht hflat]
      rfl

theorem allBlank_unlines {ls : List (List Char)} (h : ∀ l ∈ ls, AllBlank l) :
    AllBlank (unlines ls) := by
  induction ls with
  | nil => exact allBlank_nil
  | cons l ls ih =>
    have hl : AllBlank l := h l (by simp)
    by_cases hls : ls = []
    · simpa [hls, unlines] using hl
    · rw [unlines_cons_of_ne_nil l hls]
      exact hl.append (allBlank_cons.mpr ⟨rfl, ih fun m hm => h m (List.mem_cons_of_mem l hm)⟩)

theorem trimStart_append_of_inked {s : List Char} (h : ¬AllBlank s) (t : List Char) :
    trimStart (s ++ t) = trimStart s ++ t := by
  obtain ⟨a, ha, hs⟩ := exists_trimStart s
  obtain ⟨c, r, hc⟩ := List.exists_cons_of_ne_nil (mt trimStart_eq_nil.mp h)
  have hink : isBlank c = false := head_trimStart (s := s) (by simp [hc])
  conv_lhs => rw [hs, List.append_assoc, trimStart_append ha, hc, List.cons_append]
  rw [trimStart_of_head hink, hc, List.cons_append]

theorem trimStart_unlines {before : List (List Char)} (hbefore : ∀ l ∈ before, AllBlank l)
    {first : List Char} (hfirst : ¬AllBlank first) (after : List (List Char)) :
    trimStart (unlines (before ++ first :: after)) = unlines (trimStart first :: after) := by
  have hcons : trimStart (unlines (first :: after)) = unlines (trimStart first :: after) := by
    by_cases h : after = []
    · simp [h, unlines]
    · rw [unlines_cons_of_ne_nil _ h, unlines_cons_of_ne_nil _ h, trimStart_append_of_inked hfirst]
  by_cases h : before = []
  · rw [h, List.nil_append, hcons]
  · rw [unlines_append h (by simp), trimStart_append (allBlank_unlines hbefore),
      trimStart_of_blank rfl, hcons]

theorem trimEnd_unlines (front : List (List Char)) {last : List Char} (hlast : ¬AllBlank last)
    {behind : List (List Char)} (hbehind : ∀ l ∈ behind, AllBlank l) :
    trimEnd (unlines (front ++ last :: behind)) = unlines (front ++ [trimEnd last]) := by
  have hsplit : front ++ last :: behind = (front ++ [last]) ++ behind := by simp
  have hend : trimEnd (unlines (front ++ last :: behind)) = trimEnd (unlines (front ++ [last])) := by
    by_cases h : behind = []
    · rw [h]
    · rw [hsplit, unlines_append (by simp) h]
      exact trimEnd_append (allBlank_cons.mpr ⟨rfl, allBlank_unlines hbehind⟩) _
  rw [hend]
  by_cases h : front = []
  · simp [h, unlines]
  · have hconcat (z : List Char) : unlines (front ++ [z]) = unlines front ++ ['\n'] ++ z := by
      rw [unlines_concat h]
      simp
    rw [hconcat, hconcat, trimEnd_append_inked hlast]

theorem exists_last_inked {ls : List (List Char)} {l : List Char} (hl : l ∈ ls) (h : ¬AllBlank l) :
    ∃ front last behind, ls = front ++ last :: behind ∧ ¬AllBlank last ∧
      ∀ m ∈ behind, AllBlank m := by
  induction ls using List.reverseRecOn with
  | nil => simp at hl
  | append_singleton ls m ih =>
    by_cases hm : AllBlank m
    · have hls : l ∈ ls := by
        rcases List.mem_append.mp hl with hl | hl
        · exact hl
        · obtain rfl := List.mem_singleton.mp hl
          exact absurd hm h
      obtain ⟨front, last, behind, rfl, hlast, hbehind⟩ := ih hls
      refine ⟨front, last, behind ++ [m], by simp, hlast, ?_⟩
      intro k hk
      rcases List.mem_append.mp hk with hk | hk
      · exact hbehind k hk
      · obtain rfl := List.mem_singleton.mp hk
        exact hm
    · exact ⟨ls, m, [], rfl, hm, by simp⟩

theorem exists_first_inked {ls : List (List Char)} {l : List Char} (hl : l ∈ ls) (h : ¬AllBlank l) :
    ∃ before first after, ls = before ++ first :: after ∧ (∀ m ∈ before, AllBlank m) ∧
      ¬AllBlank first := by
  induction ls with
  | nil => simp at hl
  | cons m ms ih =>
    by_cases hm : AllBlank m
    · have hms : l ∈ ms := by
        rcases List.mem_cons.mp hl with rfl | hl
        · exact absurd hm h
        · exact hl
      obtain ⟨before, first, after, rfl, hbefore, hfirst⟩ := ih hms
      exact ⟨m :: before, first, after, rfl, List.forall_mem_cons.mpr ⟨hm, hbefore⟩, hfirst⟩
    · exact ⟨[], m, ms, rfl, by simp, hm⟩

/-- Trimming joined lines cuts blank lines at both ends and blanks of the lines that are left. -/
theorem exists_trim_unlines {before : List (List Char)} (hbefore : ∀ l ∈ before, AllBlank l)
    {first : List Char} (hfirst : ¬AllBlank first) {after : List (List Char)}
    (hclean : ∀ l ∈ first :: after, CleanLine l) :
    ∃ x xs behind, trim (unlines (before ++ first :: after)) = unlines (x :: xs) ∧
      (∀ l ∈ x :: xs, CleanLine l) ∧ (∀ l ∈ behind, AllBlank l) ∧
      trimEnd x = trimEnd (trimStart first) ∧ (xs ++ behind).map trimEnd = after.map trimEnd := by
  have hinked : ¬AllBlank (trimStart first) :=
    mt (allBlank_of_trim_eq (trim_trimStart first)).mp hfirst
  have hwhole : ∀ l ∈ trimStart first :: after, CleanLine l := by
    obtain ⟨hfirst', hafter⟩ := List.forall_mem_cons.mp hclean
    exact List.forall_mem_cons.mpr ⟨hfirst'.sublist (trimStart_sublist first), hafter⟩
  obtain ⟨front, last, behind, hsplit, hlast, hbehind⟩ :=
    exists_last_inked (List.mem_cons_self (l := after)) hinked
  obtain ⟨x, xs, hx⟩ := List.exists_cons_of_ne_nil (l := front ++ [trimEnd last]) (by simp)
  have htrim : trim (unlines (before ++ first :: after)) = unlines (x :: xs) := by
    rw [trim, trimStart_unlines hbefore hfirst, hsplit, trimEnd_unlines front hlast hbehind, hx]
  have hcut : ∀ l ∈ front ++ [trimEnd last], CleanLine l := by
    rw [hsplit] at hwhole
    intro l hl
    rcases List.mem_append.mp hl with hl | hl
    · exact hwhole l (by simp [hl])
    · obtain rfl := List.mem_singleton.mp hl
      exact (hwhole last (by simp)).sublist (trimEnd_sublist last)
  have hview : (x :: (xs ++ behind)).map trimEnd = (trimStart first :: after).map trimEnd := by
    rw [← List.cons_append, ← hx, hsplit]
    simp [trimEnd_trimEnd]
  obtain ⟨hhead, htail⟩ := List.cons.inj hview
  exact ⟨x, xs, behind, htrim, hx ▸ hcut, hbehind, hhead, htail⟩

/-- Every line that is left has been cut out of one that was there. -/
theorem exists_of_mem_cutMargin {ls : List (List Char)} {l : List Char} (h : l ∈ cutMargin ls) :
    ∃ m ∈ ls, l.Sublist m := by
  cases ls with
  | nil => simp [cutMargin] at h
  | cons m ms =>
    rw [cutMargin, List.mem_cons] at h
    rcases h with rfl | h
    · exact ⟨m, by simp, trimStart_sublist m⟩
    · obtain ⟨k, hk, rfl⟩ := List.mem_map.mp h
      exact ⟨k, List.mem_cons_of_mem m hk, List.drop_sublist _ k⟩

theorem cutMargin_clean {ls : List (List Char)} (h : ∀ l ∈ ls, CleanLine l) :
    ∀ l ∈ cutMargin ls, CleanLine l := by
  intro l hl
  obtain ⟨m, hm, hsub⟩ := exists_of_mem_cutMargin hl
  exact (h m hm).sublist hsub

/-- Only empty lines are cut at the ends. -/
theorem exists_trimEmpty (ls : List (List Char)) :
    ∃ before behind, ls = before ++ trimEmpty ls ++ behind ∧ (∀ l ∈ before, AllBlank l) ∧
      ∀ l ∈ behind, AllBlank l := by
  have hempty {l : List Char} (h : l.isEmpty = true) : AllBlank l := by
    rw [List.isEmpty_iff.mp h]
    exact allBlank_nil
  refine ⟨ls.takeWhile List.isEmpty, (ls.dropWhile List.isEmpty).rtakeWhile List.isEmpty, ?_,
    fun l hl => hempty (List.mem_takeWhile_imp hl), fun l hl => hempty (List.mem_rtakeWhile_imp hl)⟩
  rw [trimEmpty, ← List.rdropWhile, List.append_assoc, List.rdropWhile_append_rtakeWhile,
    List.takeWhile_append_dropWhile]

theorem getLast_trimEmpty (ls : List (List Char)) : ∀ l ∈ (trimEmpty ls).getLast?, l ≠ [] := by
  intro l hl hnil
  have hhead := List.head?_dropWhile_not List.isEmpty (ls.dropWhile List.isEmpty).reverse
  rw [trimEmpty, List.getLast?_reverse] at hl
  rw [Option.mem_def.mp hl, hnil] at hhead
  simp at hhead

theorem trimEmpty_sublist (ls : List (List Char)) : (trimEmpty ls).Sublist ls := by
  rw [trimEmpty, ← List.rdropWhile]
  exact (List.rdropWhile_prefix _ _).sublist.trans (List.dropWhile_sublist _)

theorem mem_tail_of_mem_trimEmpty {ls : List (List Char)} {l : List Char}
    (h : l ∈ (trimEmpty ls).tail) : l ∈ ls.tail := by
  obtain ⟨before, behind, hls, -, -⟩ := exists_trimEmpty ls
  obtain ⟨first, rest, hmid⟩ := List.exists_cons_of_ne_nil (List.ne_nil_of_mem (List.mem_of_mem_tail h))
  rw [hmid, List.tail_cons] at h
  rw [hls, hmid]
  cases before <;> simp [h]

theorem dedent_unlines_eq {ls : List (List Char)} (htab : ∀ l ∈ ls, '\t' ∉ l)
    (hfeed : ∀ l ∈ ls, '\n' ∉ l) (hne : ls ≠ []) :
    dedent (unlines ls) = unlines (trimEmpty (cutMargin ls)) := by
  have hsplit : (unlines ls).splitOn '\n' = ls := List.splitOn_intercalate '\n' hfeed hne
  rw [dedent, expandTabs_of_noTab (not_mem_unlines (by decide) htab), hsplit]

theorem lines_unlines_trimEmpty {ls : List (List Char)} (h : ∀ l ∈ ls, OneLine l) :
    lines (unlines (trimEmpty ls)) = trimEmpty ls :=
  lines_unlines (fun l hl => h l ((trimEmpty_sublist ls).subset hl)) (getLast_trimEmpty ls)

theorem lines_dedent_unlines {ls : List (List Char)} (h : ∀ l ∈ ls, CleanLine l) (hne : ls ≠ []) :
    lines (dedent (unlines ls)) = trimEmpty (cutMargin ls) := by
  rw [dedent_unlines_eq (fun l hl => (h l hl).noTab) (fun l hl => (h l hl).newline_not_mem) hne]
  exact lines_unlines_trimEmpty fun l hl => (cutMargin_clean h l hl).oneLine

theorem head_trimEmpty (ls : List (List Char)) : ∀ l ∈ (trimEmpty ls).head?, l ≠ [] := by
  intro l hl hnil
  have hprefix : trimEmpty ls <+: ls.dropWhile List.isEmpty := List.rdropWhile_prefix _ _
  have hhead := List.head?_dropWhile_not List.isEmpty ls
  obtain ⟨r, hr⟩ := hprefix
  rw [← hr, List.head?_append, Option.mem_def.mp hl, hnil] at hhead
  simp at hhead

/-- Lines without blanks at their ends are trimmed by cutting the empty ones at both ends. -/
theorem trim_unlines_trimmed {ls : List (List Char)} (h : ∀ l ∈ ls, Trimmed l) :
    trim (unlines ls) = unlines (trimEmpty ls) := by
  obtain ⟨before, behind, hls, hbefore, hbehind⟩ := exists_trimEmpty ls
  have hinked {l : List Char} (hl : l ∈ trimEmpty ls) (hne : l ≠ []) : ¬AllBlank l :=
    fun hb => hne (trimmed_of_inked_eq (h l ((trimEmpty_sublist ls).subset hl)) hb)
  cases hmid : trimEmpty ls with
  | nil =>
    rw [hmid, List.append_nil] at hls
    have hall : ∀ l ∈ ls, AllBlank l := by
      rw [hls]
      intro l hl
      rcases List.mem_append.mp hl with hl | hl
      · exact hbefore l hl
      · exact hbehind l hl
    rw [trim_eq_nil.mpr (allBlank_unlines hall)]
    rfl
  | cons first rest =>
    obtain ⟨front, last, hlast⟩ : ∃ front last, first :: rest = front ++ [last] := by
      rcases List.eq_nil_or_concat' (first :: rest) with hn | hn
      · cases hn
      · exact hn
    have hfirst : ¬AllBlank first :=
      hinked (by simp [hmid]) (head_trimEmpty ls first (by simp [hmid]))
    have hlast' : ¬AllBlank last :=
      hinked (by simp [hmid, hlast]) (getLast_trimEmpty ls last (by simp [hmid, hlast]))
    have htrim {l : List Char} (hl : l ∈ trimEmpty ls) : Trimmed l :=
      h l ((trimEmpty_sublist ls).subset hl)
    have hstart : trimStart first = first := (htrim (by simp [hmid])).trimStart_eq
    have hend : trimEnd last = last := (htrim (by simp [hmid, hlast])).trimEnd_eq
    rw [hmid, List.append_assoc, List.cons_append] at hls
    rw [trim, hls, trimStart_unlines hbefore hfirst, hstart, ← List.cons_append, hlast,
      List.append_assoc, List.singleton_append, trimEnd_unlines front hlast' hbehind, hend]

theorem tab_not_mem_expandTabs (column : Nat) (s : List Char) : '\t' ∉ expandTabs column s := by
  induction s generalizing column with
  | nil => simp [expandTabs]
  | cons c r ih =>
    rw [expandTabs]
    split
    case isTrue =>
      rw [List.mem_append, List.mem_replicate]
      rintro (⟨-, h⟩ | h)
      · exact absurd h (by decide)
      · exact ih _ h
    case isFalse hc =>
      rw [List.mem_cons]
      rintro (h | h)
      · exact hc h.symm
      · exact ih _ h

theorem mem_unlines {ls : List (List Char)} {l : List Char} (hl : l ∈ ls) {c : Char} (hc : c ∈ l) :
    c ∈ unlines ls := by
  induction ls with
  | nil => simp at hl
  | cons m ms ih =>
    by_cases hms : ms = []
    · subst hms
      obtain rfl := List.mem_singleton.mp hl
      simpa [unlines] using hc
    · rw [unlines_cons_of_ne_nil m hms, List.mem_append, List.mem_cons]
      rcases List.mem_cons.mp hl with rfl | hl
      · exact .inl hc
      · exact .inr (.inr (ih hl))

theorem mem_of_mem_lines {s l : List Char} (hl : l ∈ lines s) {c : Char} (hc : c ∈ l) : c ∈ s := by
  induction s using lines.induct generalizing l with
  | case1 => simp [lines] at hl
  | case2 r ih =>
    rw [lines, List.mem_cons] at hl
    rcases hl with rfl | hl
    · simp at hc
    · simp [ih hl hc]
  | case3 d r hdr hd ih =>
    rw [lines.eq_3 d r hdr, if_pos hd, List.mem_cons] at hl
    rcases hl with rfl | hl
    · simp at hc
    · simp [ih hl hc]
  | case4 d r hdr hd ih =>
    rw [lines.eq_3 d r hdr, if_neg hd] at hl
    cases hr : lines r with
    | nil =>
      rw [hr, consLine, List.mem_singleton] at hl
      subst hl
      simp [List.mem_singleton.mp hc]
    | cons m ms =>
      rw [hr, consLine, List.mem_cons] at hl
      rcases hl with rfl | hl
      · rcases List.mem_cons.mp hc with rfl | hc
        · simp
        · exact List.mem_cons_of_mem d (ih (by simp [hr]) hc)
      · exact List.mem_cons_of_mem d (ih (by simp [hr, hl]) hc)

theorem cleanLine_of_mem_lines_dedent {s l : List Char} (hl : l ∈ lines (dedent s)) :
    CleanLine l := by
  refine ⟨oneLine_of_mem_lines hl, fun htab => ?_⟩
  have hcut : '\t' ∈ dedent s := mem_of_mem_lines hl htab
  refine not_mem_unlines (by decide) (fun m hm hmem => ?_) hcut
  obtain ⟨k, hk, hsub⟩ := exists_of_mem_cutMargin ((trimEmpty_sublist _).subset hm)
  have hexpanded := mem_unlines hk (hsub.subset hmem)
  rw [unlines, List.intercalate_splitOn] at hexpanded
  exact tab_not_mem_expandTabs 0 s hexpanded

end RouteDoc.Text
