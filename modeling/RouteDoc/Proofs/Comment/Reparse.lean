import RouteDoc.Proofs.Comment.Rendering
/-! Reading a comment that has been written out. The summary and the tags always come back. The
details come back but for the margin of the lines written below the summary, and there is none as soon
as a tag stands among these lines or a line of the details starts at the left edge. -/
namespace RouteDoc.Comment
open Text

def Flush (l : List Char) : Prop := ∃ c r, l = c :: r ∧ isBlank c = false

theorem flush_iff {l : List Char} : Flush l ↔ ¬AllBlank l ∧ indent l = 0 := by
  cases l with
  | nil => simp [Flush, AllBlank]
  | cons c r =>
    cases hc : isBlank c with
    | true => simp [Flush, indent, hc]
    | false => simp [Flush, allBlank_cons, indent, hc]

theorem Flush.not_allBlank {l : List Char} (h : Flush l) : ¬AllBlank l := (flush_iff.mp h).1

theorem Flush.trimStart_eq {l : List Char} (h : Flush l) : trimStart l = l := by
  obtain ⟨c, r, rfl, hc⟩ := h
  exact trimStart_of_head hc r

theorem Flush.margin_eq {ls : List (List Char)} {l : List Char} (h : Flush l) (hl : l ∈ ls) :
    margin ls = 0 := by
  obtain ⟨c, r, rfl, hc⟩ := h
  exact margin_eq_zero hl (by simp [allBlank_cons, hc]) (by simpa using hc)

theorem IsSummary.flush {l : List Char} (h : IsSummary l) : Flush l := by
  cases l with
  | nil => exact absurd allBlank_nil h.inked
  | cons c r => exact ⟨c, r, rfl, h.trimmed.head c rfl⟩

/-- A plain text whose first line with text starts at the left edge. -/
theorem parse_unlines_flush {before : List (List Char)} {first : List Char}
    {after : List (List Char)} (hclean : ∀ l ∈ before ++ first :: after, CleanLine l)
    (hbefore : ∀ l ∈ before, AllBlank l) (hfirst : Flush first) (hplain : ¬"/**".toList <+: first) :
    parse (String.ofList (unlines (before ++ first :: after))) =
      ofLines (first :: after.map (·.drop (margin after))) := by
  have hblock : ¬"/**".toList <+: trim (unlines (before ++ first :: after)) := by
    intro h
    rw [trim, trimStart_unlines hbefore hfirst.not_allBlank, hfirst.trimStart_eq] at h
    have hwhole := h.trans (prefix_trimEnd _)
    by_cases hafter : after = []
    · rw [hafter] at hwhole
      exact hplain (by simpa [unlines] using hwhole)
    · rw [unlines_cons_of_ne_nil first hafter] at hwhole
      exact hplain (prefix_of_prefix_separator (by decide) hwhole)
  rw [parse_unlines hclean hbefore hfirst.not_allBlank hblock, hfirst.trimStart_eq]

variable {summary : List Char} {ps : List (List (List Char))}
  {ts : List (List Char × List (List Char))}

theorem exists_tagLines_cons (name : List Char) (ls : List (List Char)) :
    ∃ first rest, tagLines name ls = first :: rest ∧ Flush first ∧ ¬"/**".toList <+: first := by
  cases ls with
  | nil => exact ⟨_, [], rfl, ⟨_, _, rfl, rfl⟩, by simp⟩
  | cons l ls => exact ⟨_, ls, rfl, ⟨_, _, rfl, rfl⟩, by simp⟩

theorem exists_allTagLines_cons (h : ts ≠ []) :
    ∃ first rest, allTagLines ts = first :: rest ∧ Flush first ∧ ¬"/**".toList <+: first := by
  obtain ⟨t, ts, rfl⟩ := List.exists_cons_of_ne_nil h
  obtain ⟨first, rest, hlines, hfirst⟩ := exists_tagLines_cons t.1 (trimEmpty t.2)
  refine ⟨first, rest ++ allTagLines ts, ?_, hfirst⟩
  rw [allTagLines, List.flatMap_cons, hlines]
  rfl

def assemble (summary : List Char) (ps : List (List (List Char)))
    (ts : List (List Char × List (List Char))) : Comment :=
  ⟨String.ofList summary, String.ofList (unlines (spread ps)), ts.map tagOf⟩

/-- Reading makes a comment of its parts, and without a summary there are no details. -/
theorem exists_parts {ls : List (List Char)} (h : ∀ l ∈ ls, CleanLine l) :
    ∃ summary ps ts, ofLines ls = assemble summary ps ts ∧
      (IsSummary summary ∨ summary = [] ∧ ps = []) ∧ (∀ p ∈ ps, IsParagraph p) ∧
      ∀ t ∈ ts, Cut t := by
  have hps : ∀ p ∈ paragraphs (sections ls).1, IsParagraph p :=
    fun p hp => isParagraph_of_mem_paragraphs h hp
  rw [ofLines_eq]
  cases hs : paragraphs (sections ls).1 with
  | nil => exact ⟨[], [], (sections ls).2, rfl, .inr ⟨rfl, rfl⟩, by simp, cut_of_mem_sections h⟩
  | cons p ps =>
    rw [hs] at hps
    have hne : ∀ q ∈ ps, q ≠ [] := fun q hq => (hps q (List.mem_cons_of_mem p hq)).ne_nil
    refine ⟨[' '].intercalate (p.map trim), ps, (sections ls).2, ?_, .inl (hps p (by simp)).isSummary,
      fun q hq => hps q (List.mem_cons_of_mem p hq), cut_of_mem_sections h⟩
    rw [assemble, unlines_spread hne]
    rfl

/-- The lines on which a comment is written. -/
theorem render_assemble (summary : List Char) (hps : ∀ p ∈ ps, IsParagraph p)
    (hts : ∀ t ∈ ts, Cut t) :
    render (assemble summary ps ts) =
      String.ofList (unlines (summary :: [] :: (spread ps ++ [] :: allTagLines ts))) := by
  have hwritten : (ts.map tagOf).map Tag.written =
      (ts.map fun t => tagLines t.1 (trimEmpty t.2)).map unlines := by
    rw [List.map_map, List.map_map]
    exact List.map_congr_left fun t ht => written_tagOf (hts t ht)
  have hlines : [summary, [], unlines (spread ps), []] ++ (ts.map tagOf).map Tag.written =
      ([[summary], [[]], spread ps, [[]]] ++
        ts.map fun t => tagLines t.1 (trimEmpty t.2)).map unlines := by
    rw [hwritten, List.map_append]
    simp [unlines]
  have hne : ∀ u ∈ [[summary], [[]], spread ps, [[]]] ++
      ts.map fun t => tagLines t.1 (trimEmpty t.2), u ≠ [] := by
    intro u hu
    simp only [List.mem_append, List.mem_cons, List.not_mem_nil, or_false, List.mem_map] at hu
    rcases hu with (rfl | rfl | rfl | rfl) | ⟨t, -, rfl⟩
    · simp
    · simp
    · exact spread_ne_nil fun p hp => (hps p hp).ne_nil
    · simp
    · obtain ⟨first, rest, hfirst, -⟩ := exists_tagLines_cons t.1 (trimEmpty t.2)
      simp [hfirst]
  rw [render, assemble, String.toList_ofList, String.toList_ofList, hlines, unlines_map_unlines hne]
  simp [allTagLines, List.flatMap]

/-- Written lines are taken apart where they were put together. -/
theorem ofLines_written (hsummary : IsSummary summary) (hps : ∀ p ∈ ps, IsParagraph p)
    (hts : ∀ t ∈ ts, Cut t) :
    ofLines (summary :: [] :: (spread ps ++ [] :: allTagLines ts)) = assemble summary ps ts := by
  have hblank : PlainLine [] := plainLine_iff_tagLine?.mpr (tagLine?_blank allBlank_nil)
  have hbefore : ∀ l ∈ [summary] ++ [] :: (spread ps ++ [[]]), PlainLine l := by
    intro l hl
    simp only [List.mem_append, List.mem_cons, List.not_mem_nil, or_false] at hl
    rcases hl with rfl | rfl | hl | rfl
    · exact hsummary.plain
    · exact hblank
    · rcases mem_spread hl with rfl | ⟨p, hp, hlp⟩
      · exact hblank
      · exact (hps p hp).plain l hlp
    · exact hblank
  have hsplit : summary :: [] :: (spread ps ++ [] :: allTagLines ts) =
      ([summary] ++ [] :: (spread ps ++ [[]])) ++ allTagLines ts := by simp
  have hfirst : Settled [summary] := by
    refine ⟨by simp, ?_, ?_⟩ <;> intro l hl <;> obtain rfl := List.mem_singleton.mp hl
    · exact hsummary.inked
    · exact hsummary.trimmed.trimEnd_eq
  have hsettled : ∀ p ∈ ps, Settled p := fun p hp => (hps p hp).toSettled
  obtain ⟨hnone, htags⟩ := sections_allTagLines hts
  rw [hsplit, ofLines_eq, sections_append_plain hbefore, hnone, List.append_nil, htags,
    paragraphs_settled hfirst, paragraphs_spread hsettled, assemble,
    unlines_spread fun p hp => (hps p hp).ne_nil]
  simp [hsummary.trimmed.trim_eq]

/-- A comment with tags only. -/
theorem parse_render_tags (hts : ∀ t ∈ ts, Cut t) :
    parse (render (assemble [] [] ts)) = assemble [] [] ts := by
  have hblank : ∀ l ∈ [[], [], [], []], AllBlank l := by simp [AllBlank]
  have hlines : [] :: [] :: (spread [] ++ [] :: allTagLines ts) =
      [[], [], [], []] ++ allTagLines ts := rfl
  rw [render_assemble [] (by simp) hts, hlines]
  by_cases hnone : ts = []
  · rw [hnone]
    exact parse_blank hblank
  · obtain ⟨first, rest, hcons, hfirst, hplain⟩ := exists_allTagLines_cons hnone
    have htrimmed : ∀ l ∈ rest, Trimmed l := fun l hl => (mem_allTagLines hts l (by simp [hcons, hl])).2
    have hclean : ∀ l ∈ [[], [], [], []] ++ first :: rest, CleanLine l := by
      intro l hl
      rcases List.mem_append.mp hl with hl | hl
      · have hnil : l = [] := by simpa using hl
        exact hnil ▸ CleanLine.nil
      · exact (mem_allTagLines hts l (hcons ▸ hl)).1
    obtain ⟨hbefore, htags⟩ := sections_allTagLines hts
    rw [hcons, parse_unlines_flush hclean hblank hfirst hplain, margin_of_trimmed htrimmed]
    simp only [List.drop_zero, List.map_id']
    rw [← hcons, ofLines_eq, hbefore, htags]
    rfl

theorem isParagraph_drop_margin (hps : ∀ p ∈ ps, IsParagraph p)
    (ts : List (List Char × List (List Char))) :
    ∀ q ∈ ps.map (List.map (·.drop (margin ([] :: (spread ps ++ [] :: allTagLines ts))))),
      IsParagraph q := by
  intro q hq
  obtain ⟨p, hp, rfl⟩ := List.mem_map.mp hq
  refine (hps p hp).drop fun l hl => allBlank_take_margin ?_
  simp [mem_spread_of_mem hp hl]

/-- What the written lines below the summary have for a margin is cut from the details. -/
theorem parse_render_drop (hsummary : IsSummary summary) (hblock : ¬"/**".toList <+: summary)
    (hps : ∀ p ∈ ps, IsParagraph p) (hts : ∀ t ∈ ts, Cut t) {m : Nat}
    (hm : margin ([] :: (spread ps ++ [] :: allTagLines ts)) = m) :
    parse (render (assemble summary ps ts)) = assemble summary (ps.map (List.map (·.drop m))) ts := by
  have hall : ∀ l ∈ [] ++ summary :: [] :: (spread ps ++ [] :: allTagLines ts), CleanLine l := by
    intro l hl
    simp only [List.nil_append, List.mem_cons, List.mem_append] at hl
    rcases hl with rfl | rfl | hl | rfl | hl
    · exact hsummary.clean
    · exact CleanLine.nil
    · rcases mem_spread hl with rfl | ⟨p, hp, hlp⟩
      · exact CleanLine.nil
      · exact (hps p hp).clean l hlp
    · exact CleanLine.nil
    · exact (mem_allTagLines hts l hl).1
  have htagLines : (allTagLines ts).map (·.drop m) = allTagLines ts := by
    by_cases hnone : ts = []
    · rw [hnone]
      rfl
    · obtain ⟨first, rest, hlines, hfirst, -⟩ := exists_allTagLines_cons hnone
      have hzero : m = 0 := by
        rw [← hm]
        exact hfirst.margin_eq (by simp [hlines])
      simp [hzero]
  have hdropped : ∀ q ∈ ps.map (List.map (·.drop m)), IsParagraph q := by
    rw [← hm]
    exact isParagraph_drop_margin hps ts
  have hparse := parse_unlines_flush hall (by simp) hsummary.flush hblock
  rw [List.nil_append] at hparse
  rw [render_assemble summary hps hts, hparse, hm, List.map_cons, List.drop_nil, List.map_append,
    List.map_cons, List.drop_nil, htagLines, map_spread List.drop_nil,
    ofLines_written hsummary hdropped hts]

theorem lines_spread (hps : ∀ p ∈ ps, IsParagraph p) (hne : ps ≠ []) :
    lines (unlines (spread ps)) = spread ps := by
  refine lines_unlines (fun l hl => ?_) (last_spread (fun p hp => (hps p hp).toSettled) hne)
  rcases mem_spread hl with rfl | ⟨p, hp, hlp⟩
  · exact CleanLine.nil.oneLine
  · exact ((hps p hp).clean l hlp).oneLine

theorem details_eq_empty (hps : ∀ p ∈ ps, IsParagraph p) :
    (assemble summary ps ts).details = "" ↔ ps = [] := by
  constructor
  · intro h
    by_contra hne
    have hnil : unlines (spread ps) = [] := by
      rw [← String.toList_ofList (l := unlines (spread ps))]
      exact String.toList_eq_nil_iff.mpr h
    have hlines := lines_spread hps hne
    rw [hnil] at hlines
    exact spread_ne_nil (fun p hp => (hps p hp).ne_nil) hlines.symm
  · rintro rfl
    rfl

/-- A margin is cut from every line with text, so the details show it. -/
theorem assemble_drop_eq_iff (hps : ∀ p ∈ ps, IsParagraph p) (hne : ps ≠ []) {m : Nat}
    (hdropped : ∀ q ∈ ps.map (List.map (·.drop m)), IsParagraph q) :
    assemble summary (ps.map (List.map (·.drop m))) ts = assemble summary ps ts ↔ m = 0 := by
  constructor
  · intro h
    have hdetails : unlines (spread (ps.map (List.map (·.drop m)))) = unlines (spread ps) :=
      String.ofList_injective (congrArg Comment.details h)
    have hlines : (spread ps).map (·.drop m) = spread ps := by
      rw [map_spread List.drop_nil, ← lines_spread hdropped (by simpa using hne), hdetails,
        lines_spread hps hne]
    obtain ⟨p, ps, rfl⟩ := List.exists_cons_of_ne_nil hne
    obtain ⟨l, ls, rfl⟩ := List.exists_cons_of_ne_nil (hps p (by simp)).ne_nil
    have hinked : ¬AllBlank l := (hps _ List.mem_cons_self).inked l List.mem_cons_self
    have hmem : l ∈ spread ((l :: ls) :: ps) := mem_spread_of_mem List.mem_cons_self List.mem_cons_self
    have hsame : l.drop m = l := List.map_inj_left.mp (hlines.trans (List.map_id _).symm) l hmem
    have hlength := congrArg List.length hsame
    have hpos : 0 < l.length := List.length_pos_iff.mpr fun hnil => hinked (hnil ▸ allBlank_nil)
    rw [List.length_drop] at hlength
    omega
  · rintro rfl
    simp

theorem margin_written_eq_zero_iff (hps : ∀ p ∈ ps, IsParagraph p)
    (hne : ps ≠ []) (ts : List (List Char × List (List Char))) :
    margin ([] :: (spread ps ++ [] :: allTagLines ts)) = 0 ↔
      ts ≠ [] ∨ ∃ l ∈ spread ps, Flush l := by
  constructor
  · intro hzero
    by_cases hnone : ts = []
    · obtain ⟨p, hp⟩ := List.exists_mem_of_ne_nil ps hne
      obtain ⟨l, hl⟩ := List.exists_mem_of_ne_nil p (hps p hp).ne_nil
      have hmem : l ∈ [] :: (spread ps ++ [] :: allTagLines ts) := by simp [mem_spread_of_mem hp hl]
      obtain ⟨k, hk, hinked, hindent⟩ := exists_margin_eq hmem ((hps p hp).inked l hl)
      have hflush : Flush k := flush_iff.mpr ⟨hinked, hindent.symm.trans hzero⟩
      rw [hnone] at hk
      simp only [allTagLines, List.flatMap_nil, List.mem_cons, List.mem_append, List.not_mem_nil,
        or_false] at hk
      rcases hk with rfl | hk | rfl
      · exact absurd allBlank_nil hinked
      · exact .inr ⟨k, hk, hflush⟩
      · exact absurd allBlank_nil hinked
    · exact .inl hnone
  · rintro (hts | ⟨l, hl, hflush⟩)
    · obtain ⟨first, rest, hlines, hfirst, -⟩ := exists_allTagLines_cons hts
      exact hfirst.margin_eq (by simp [hlines])
    · exact hflush.margin_eq (by simp [hl])

/-- A comment that is written out and read again is the same, unless it has no tags and all lines of
its details are indented; a summary that looks like the opening of a block is left aside. -/
theorem parse_render (s : String) (hblock : ¬"/**".toList <+: (parse s).summary.toList) :
    parse (render (parse s)) = parse s ↔
      (parse s).tags ≠ [] ∨ (parse s).details = "" ∨
        ∃ l ∈ lines (parse s).details.toList, Flush l := by
  have hclean : ∀ l ∈ lines (dedent (body s.toList)), CleanLine l :=
    fun l hl => cleanLine_of_mem_lines_dedent hl
  obtain ⟨summary, ps, ts, hparts, hsummary, hps, hts⟩ := exists_parts hclean
  have hread : parse s = assemble summary ps ts := hparts
  have htags : (assemble summary ps ts).tags ≠ [] ↔ ts ≠ [] := not_congr List.map_eq_nil_iff
  have hdetails : (assemble summary ps ts).details.toList = unlines (spread ps) := String.toList_ofList
  rw [hread] at hblock ⊢
  rw [htags, details_eq_empty hps, hdetails]
  rcases hsummary with hsummary | ⟨rfl, rfl⟩
  · have hplain : ¬"/**".toList <+: summary := by simpa [assemble] using hblock
    have hdrop := parse_render_drop hsummary hplain hps hts rfl
    by_cases hne : ps = []
    · subst hne
      exact ⟨fun _ => .inr (.inl rfl), fun _ => hdrop⟩
    · rw [hdrop, assemble_drop_eq_iff hps hne (isParagraph_drop_margin hps ts),
        margin_written_eq_zero_iff hps hne, lines_spread hps hne]
      simp [hne]
  · exact ⟨fun _ => .inr (.inl rfl), fun _ => parse_render_tags hts⟩

def unevenText : String :=
  "/**\n * Title\n\t*  more\u2028 *\n * Left edge,\n *   then in\u00a0\n *\u000b\n *\t  further in\n */"

theorem parse_render_unevenText :
    ¬"/**".toList <+: (parse unevenText).summary.toList ∧
      parse (render (parse unevenText)) = parse unevenText :=
  have hblock : ¬"/**".toList <+: (parse unevenText).summary.toList := by decide +kernel
  have hflush : ∃ l ∈ lines (parse unevenText).details.toList, Flush l :=
    ⟨"Left edge,".toList, by decide +kernel, 'L', "eft edge,".toList, rfl, rfl⟩
  ⟨hblock, (parse_render unevenText hblock).mpr (.inr (.inr hflush))⟩

/-- The empty line between two indented paragraphs does not keep their margin. -/
theorem parse_render_indented :
    (parse "A\nB\n\n  y\n\n  z").summary = "A B" ∧
      [] ∈ lines (parse "A\nB\n\n  y\n\n  z").details.toList ∧ indent [] = 0 ∧
      parse (render (parse "A\nB\n\n  y\n\n  z")) ≠ parse "A\nB\n\n  y\n\n  z" := by
  decide +kernel

end RouteDoc.Comment
