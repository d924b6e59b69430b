import RouteDoc.Proofs.Comment.Sections
import RouteDoc.Proofs.Text.Dedent
/-! The layout that a comment's lines leave open. Blank lines at the ends, blanks at the end of a line
and the indentation of the first line make no difference to the comment that the lines make;
indentation makes one to its details only. -/
namespace RouteDoc.Comment
open Text

theorem tagLine?_blank {l : List Char} (h : AllBlank l) : tagLine? (trim l) = none := by
  rw [trim_eq_nil.mpr h]
  rfl

theorem sections_plain {l : List Char} (h : tagLine? (trim l) = none) (ls : List (List Char)) :
    sections (l :: ls) = (l :: (sections ls).1, (sections ls).2) := by
  simp only [sections, h]

theorem sections_tag {l : List Char} {t : List Char × List Char} (h : tagLine? (trim l) = some t)
    (ls : List (List Char)) :
    sections (l :: ls) = ([], (t.1, t.2 :: (sections ls).1.map trim) :: (sections ls).2) := by
  simp only [sections, h]

theorem mem_of_mem_sections {ls : List (List Char)} {l : List Char} (h : l ∈ (sections ls).1) :
    l ∈ ls := by
  induction ls with
  | nil => simp [sections] at h
  | cons m ms ih =>
    cases hm : tagLine? (trim m) with
    | some t => simp [sections_tag hm] at h
    | none =>
      rw [sections_plain hm, List.mem_cons] at h
      rcases h with rfl | h
      · simp
      · exact List.mem_cons_of_mem m (ih h)

/-- Lines that are changed at their ends only keep their sections. -/
theorem sections_map {g : List Char → List Char} {ls : List (List Char)}
    (hg : ∀ l ∈ ls, trim (g l) = trim l) :
    sections (ls.map g) = ((sections ls).1.map g, (sections ls).2) := by
  induction ls with
  | nil => rfl
  | cons l ls ih =>
    have hl : trim (g l) = trim l := hg l (by simp)
    have hls : ∀ m ∈ ls, trim (g m) = trim m := fun m hm => hg m (List.mem_cons_of_mem l hm)
    have hi := ih hls
    rw [List.map_cons]
    cases ht : tagLine? (trim l) with
    | none =>
      rw [sections_plain (by rw [hl, ht]), sections_plain ht, hi]
      rfl
    | some t =>
      have hbefore : ((sections ls).1.map g).map trim = (sections ls).1.map trim := by
        rw [List.map_map]
        exact List.map_congr_left fun m hm => hls m (mem_of_mem_sections hm)
      rw [sections_tag (by rw [hl, ht]),
        sections_tag ht, hi, hbefore]
      rfl

theorem paragraphs_eq (ls : List (List Char)) :
    paragraphs ls =
      if (splitParagraphs ls).1.isEmpty then (splitParagraphs ls).2
      else (splitParagraphs ls).1 :: (splitParagraphs ls).2 := rfl

theorem paragraphs_blank {l : List Char} (hl : AllBlank l) (ls : List (List Char)) :
    paragraphs (l :: ls) = paragraphs ls := by
  rw [paragraphs_eq, splitParagraphs_blank hl]
  rfl

theorem paragraphs_inked {l : List Char} (hl : ¬AllBlank l) (ls : List (List Char)) :
    paragraphs (l :: ls) =
      (trimEnd l :: (splitParagraphs ls).1) :: (splitParagraphs ls).2 := by
  rw [paragraphs_eq, splitParagraphs_inked hl]
  rfl

theorem paragraphs_map_of_split {g : List Char → List Char} {ls : List (List Char)}
    (h : splitParagraphs (ls.map g) =
      ((splitParagraphs ls).1.map g, (splitParagraphs ls).2.map (List.map g))) :
    paragraphs (ls.map g) = (paragraphs ls).map (List.map g) := by
  rw [paragraphs_eq, paragraphs_eq, h]
  cases (splitParagraphs ls).1 <;> rfl

theorem splitParagraphs_map {g : List Char → List Char} {ls : List (List Char)}
    (hblank : ∀ l ∈ ls, AllBlank (g l) ↔ AllBlank l)
    (hend : ∀ l ∈ ls, trimEnd (g l) = g (trimEnd l)) :
    splitParagraphs (ls.map g) =
      ((splitParagraphs ls).1.map g, (splitParagraphs ls).2.map (List.map g)) := by
  induction ls with
  | nil => rfl
  | cons l ls ih =>
    have hi := ih (fun m hm => hblank m (List.mem_cons_of_mem l hm))
      (fun m hm => hend m (List.mem_cons_of_mem l hm))
    rw [List.map_cons]
    by_cases hl : AllBlank l
    · rw [splitParagraphs_blank ((hblank l (by simp)).mpr hl), splitParagraphs_blank hl,
        paragraphs_map_of_split hi]
      rfl
    · rw [splitParagraphs_inked (mt (hblank l (by simp)).mp hl), splitParagraphs_inked hl, hi,
        hend l (by simp)]
      rfl

theorem paragraphs_map {g : List Char → List Char} {ls : List (List Char)}
    (hblank : ∀ l ∈ ls, AllBlank (g l) ↔ AllBlank l)
    (hend : ∀ l ∈ ls, trimEnd (g l) = g (trimEnd l)) :
    paragraphs (ls.map g) = (paragraphs ls).map (List.map g) :=
  paragraphs_map_of_split (splitParagraphs_map hblank hend)

theorem splitParagraphs_append_blank {bs : List (List Char)} (hbs : ∀ l ∈ bs, AllBlank l)
    (ls : List (List Char)) : splitParagraphs (ls ++ bs) = splitParagraphs ls := by
  induction ls with
  | nil =>
    induction bs with
    | nil => rfl
    | cons b bs ih =>
      have hi := ih fun l hl => hbs l (List.mem_cons_of_mem b hl)
      rw [List.nil_append] at hi ⊢
      rw [splitParagraphs_blank (hbs b (by simp)), paragraphs, hi]
      rfl
  | cons l ls ih =>
    rw [List.cons_append]
    by_cases hl : AllBlank l
    · rw [splitParagraphs_blank hl, splitParagraphs_blank hl, paragraphs, ih, paragraphs]
    · rw [splitParagraphs_inked hl, splitParagraphs_inked hl, ih]

theorem paragraphs_append_blank {bs : List (List Char)} (hbs : ∀ l ∈ bs, AllBlank l)
    (ls : List (List Char)) : paragraphs (ls ++ bs) = paragraphs ls := by
  rw [paragraphs, splitParagraphs_append_blank hbs, paragraphs]

/-- The first paragraph and every later one consist of lines that are not blank, cut at their ends.
-/
theorem of_mem_splitParagraphs {ls : List (List Char)} :
    (∀ l ∈ (splitParagraphs ls).1, ∃ m ∈ ls, ¬AllBlank m ∧ l = trimEnd m) ∧
      ∀ p ∈ (splitParagraphs ls).2, p ≠ [] ∧ ∀ l ∈ p, ∃ m ∈ ls, ¬AllBlank m ∧ l = trimEnd m := by
  induction ls with
  | nil => simp [splitParagraphs]
  | cons k ls ih =>
    have hmore {l : List Char} (h : ∃ m ∈ ls, ¬AllBlank m ∧ l = trimEnd m) :
        ∃ m ∈ k :: ls, ¬AllBlank m ∧ l = trimEnd m := by
      obtain ⟨m, hm, hrest⟩ := h
      exact ⟨m, List.mem_cons_of_mem k hm, hrest⟩
    obtain ⟨hfirst, hlater⟩ := ih
    have hlater' : ∀ p ∈ (splitParagraphs ls).2,
        p ≠ [] ∧ ∀ l ∈ p, ∃ m ∈ k :: ls, ¬AllBlank m ∧ l = trimEnd m :=
      fun p hp => ⟨(hlater p hp).1, fun l hl => hmore ((hlater p hp).2 l hl)⟩
    by_cases hk : AllBlank k
    · rw [splitParagraphs_blank hk, paragraphs_eq]
      refine ⟨by simp, ?_⟩
      cases hopen : (splitParagraphs ls).1 with
      | nil => exact hlater'
      | cons l p =>
        refine List.forall_mem_cons.mpr ⟨⟨by simp, fun m hm => hmore (hfirst m ?_)⟩, hlater'⟩
        rwa [hopen]
    · rw [splitParagraphs_inked hk]
      exact ⟨List.forall_mem_cons.mpr ⟨⟨k, by simp, hk, rfl⟩, fun l hl => hmore (hfirst l hl)⟩,
        hlater'⟩

theorem of_mem_paragraphs {ls : List (List Char)} {p : List (List Char)} (hp : p ∈ paragraphs ls) :
    p ≠ [] ∧ ∀ l ∈ p, ∃ m ∈ ls, ¬AllBlank m ∧ l = trimEnd m := by
  have hlater := (@of_mem_splitParagraphs ([] :: ls)).2
  rw [splitParagraphs_blank allBlank_nil] at hlater
  obtain ⟨hne, hlines⟩ := hlater p hp
  refine ⟨hne, fun l hl => ?_⟩
  obtain ⟨m, hm, hinked, heq⟩ := hlines l hl
  rcases List.mem_cons.mp hm with rfl | hm
  · exact absurd allBlank_nil hinked
  · exact ⟨m, hm, hinked, heq⟩

theorem map_trimEnd_paragraphs (ls : List (List Char)) :
    (paragraphs ls).map (List.map trimEnd) = paragraphs ls := by
  have hline : ∀ p ∈ paragraphs ls, p.map trimEnd = id p := by
    intro p hp
    refine (List.map_congr_left fun l hl => ?_).trans (List.map_id p)
    obtain ⟨m, -, -, rfl⟩ := (of_mem_paragraphs hp).2 l hl
    exact trimEnd_trimEnd m
  exact (List.map_congr_left hline).trans (List.map_id _)

theorem ofLines_eq (ls : List (List Char)) :
    ofLines ls =
      { summary := String.ofList ([' '].intercalate (((paragraphs (sections ls).1).headD []).map trim))
        details := String.ofList (['\n', '\n'].intercalate
          ((paragraphs (sections ls).1).tail.map unlines))
        tags := (sections ls).2.map tagOf } := rfl

/-- Blanks at the end of lines do not matter. -/
theorem ofLines_map_trimEnd (ls : List (List Char)) : ofLines (ls.map trimEnd) = ofLines ls := by
  have hparagraphs : paragraphs ((sections ls).1.map trimEnd) = paragraphs (sections ls).1 := by
    rw [paragraphs_map (fun _ _ => allBlank_trimEnd) (fun _ _ => rfl), map_trimEnd_paragraphs]
  rw [ofLines_eq, sections_map (fun l _ => trim_trimEnd l), hparagraphs, ← ofLines_eq]

theorem ofLines_congr {ls ms : List (List Char)} (h : ls.map trimEnd = ms.map trimEnd) :
    ofLines ls = ofLines ms := by
  rw [← ofLines_map_trimEnd ls, h, ofLines_map_trimEnd]

theorem ofLines_blank_append {bs : List (List Char)} (hbs : ∀ l ∈ bs, AllBlank l)
    (ls : List (List Char)) : ofLines (bs ++ ls) = ofLines ls := by
  induction bs with
  | nil => rfl
  | cons b bs ih =>
    have hb : AllBlank b := hbs b (by simp)
    rw [← ih fun l hl => hbs l (List.mem_cons_of_mem b hl), List.cons_append, ofLines_eq,
      sections_plain (tagLine?_blank hb), paragraphs_blank hb, ← ofLines_eq]

theorem ofLines_blank {ls : List (List Char)} (h : ∀ l ∈ ls, AllBlank l) : ofLines ls = {} := by
  rw [← List.append_nil ls, ofLines_blank_append h]
  rfl

theorem tagOf_append_blank (name : List Char) {parts : List (List Char)} (hparts : parts ≠ [])
    {bs : List (List Char)} (hbs : ∀ l ∈ bs, AllBlank l) :
    tagOf (name, parts ++ bs) = tagOf (name, parts) := by
  by_cases h : bs = []
  · rw [h, List.append_nil]
  · have htrim : trim (unlines (parts ++ bs)) = trim (unlines parts) := by
      rw [unlines_append hparts h]
      exact trim_append_blanks (allBlank_cons.mpr ⟨rfl, allBlank_unlines hbs⟩) _
    simp only [tagOf, htrim]

/-- Blank lines at the end come to the last tag, or to the description if there is none. -/
theorem sections_append_blank {bs : List (List Char)} (hbs : ∀ l ∈ bs, AllBlank l)
    (ls : List (List Char)) :
    (sections (ls ++ bs)).2.map tagOf = (sections ls).2.map tagOf ∧
      ∃ behind, (sections (ls ++ bs)).1 = (sections ls).1 ++ behind ∧ ∀ l ∈ behind, AllBlank l := by
  induction ls with
  | nil =>
    have hplain : sections bs = (bs, []) := by
      induction bs with
      | nil => rfl
      | cons b bs ih =>
        rw [sections_plain (tagLine?_blank (hbs b (by simp))),
          ih fun l hl => hbs l (List.mem_cons_of_mem b hl)]
    rw [List.nil_append, hplain]
    exact ⟨rfl, bs, rfl, hbs⟩
  | cons l ls ih =>
    obtain ⟨htags, behind, hbefore, hbehind⟩ := ih
    rw [List.cons_append]
    cases ht : tagLine? (trim l) with
    | none =>
      rw [sections_plain ht, sections_plain ht]
      exact ⟨htags, behind, by rw [hbefore]; rfl, hbehind⟩
    | some t =>
      rw [sections_tag ht, sections_tag ht]
      have hblank : ∀ m ∈ behind.map trim, AllBlank m := by
        intro m hm
        obtain ⟨k, hk, rfl⟩ := List.mem_map.mp hm
        rw [trim_eq_nil.mpr (hbehind k hk)]
        exact allBlank_nil
      refine ⟨?_, [], rfl, by simp⟩
      rw [List.map_cons, List.map_cons, htags, hbefore, List.map_append, ← List.cons_append,
        tagOf_append_blank t.1 (by simp) hblank]

theorem ofLines_append_blank {bs : List (List Char)} (hbs : ∀ l ∈ bs, AllBlank l)
    (ls : List (List Char)) : ofLines (ls ++ bs) = ofLines ls := by
  obtain ⟨htags, behind, hbefore, hbehind⟩ := sections_append_blank hbs ls
  rw [ofLines_eq, htags, hbefore, paragraphs_append_blank hbehind, ← ofLines_eq]

theorem ofLines_cons_blank (l : List Char) {bs : List (List Char)} (hbs : ∀ l ∈ bs, AllBlank l) :
    ofLines (l :: bs) = ofLines [l] := ofLines_append_blank hbs [l]

/-- The indentation of the first line does not matter. -/
theorem ofLines_first {first first' : List Char} (h : trim first = trim first')
    (hinked : ¬AllBlank first) (ls : List (List Char)) :
    ofLines (first :: ls) = ofLines (first' :: ls) := by
  have hinked' : ¬AllBlank first' := mt (allBlank_of_trim_eq h).mpr hinked
  cases ht : tagLine? (trim first) with
  | some t =>
    rw [ofLines_eq, sections_tag ht,
      ← sections_tag (by rw [← h, ht]), ← ofLines_eq]
  | none =>
    rw [ofLines_eq, ofLines_eq, sections_plain ht, sections_plain (by rw [← h, ht]),
      paragraphs_inked hinked, paragraphs_inked hinked']
    simp [trim_trimEnd, h]

/-- Indentation makes no difference to summary and tags. -/
theorem ofLines_map_trim (ls : List (List Char)) :
    (ofLines (ls.map trim)).summary = (ofLines ls).summary ∧
      (ofLines (ls.map trim)).tags = (ofLines ls).tags := by
  have htrim (l : List Char) : trim (trim l) = trim l := (trimmed_trim l).trim_eq
  have hparagraphs : paragraphs ((sections ls).1.map trim) =
      (paragraphs (sections ls).1).map (List.map trim) :=
    paragraphs_map (fun l _ => allBlank_of_trim_eq (htrim l))
      (fun l _ => by rw [trimEnd_trim, trim_trimEnd])
  rw [ofLines_eq, ofLines_eq, sections_map (fun l _ => htrim l), hparagraphs]
  refine ⟨?_, rfl⟩
  cases paragraphs (sections ls).1 with
  | nil => rfl
  | cons p ps => simp [Function.comp_def, htrim]

theorem ofLines_lines_dedent {ls : List (List Char)} (h : ∀ l ∈ ls, CleanLine l) (hne : ls ≠ []) :
    ofLines (lines (dedent (unlines ls))) = ofLines (cutMargin ls) := by
  obtain ⟨before, behind, hls, hbefore, hbehind⟩ := exists_trimEmpty (cutMargin ls)
  rw [lines_dedent_unlines h hne]
  conv_rhs => rw [hls, ofLines_append_blank hbehind, ofLines_blank_append hbefore]

theorem parse_blank {ls : List (List Char)} (h : ∀ l ∈ ls, AllBlank l) :
    parse (String.ofList (unlines ls)) = {} := by
  have htrim : trim (unlines ls) = [] := trim_eq_nil.mpr (allBlank_unlines h)
  have hbody : body (unlines ls) = [] := by
    rw [body_of_plain (by simp [htrim]), htrim]
  rw [parse, String.toList_ofList, hbody]
  rfl

/-- A plain text is read without its blank lines in front; its first line then stands at the edge,
and the others have the margin of the lines after the first. -/
theorem parse_unlines {before : List (List Char)} {first : List Char} {after : List (List Char)}
    (hclean : ∀ l ∈ before ++ first :: after, CleanLine l) (hbefore : ∀ l ∈ before, AllBlank l)
    (hfirst : ¬AllBlank first)
    (hplain : ¬"/**".toList <+: trim (unlines (before ++ first :: after))) :
    parse (String.ofList (unlines (before ++ first :: after))) =
      ofLines (trimStart first :: after.map (·.drop (margin after))) := by
  obtain ⟨x, xs, behind, htrim, hcut, hbehind, hhead, htail⟩ :=
    exists_trim_unlines hbefore hfirst fun l hl => hclean l (List.mem_append_right before hl)
  have hmargin : margin xs = margin after := by
    rw [← margin_append_blank xs hbehind, margin_congr htail]
  have hedge : trimEnd (trimStart x) = trimEnd (trimStart first) := by
    rw [← trim, ← trim_trimEnd x, hhead, trim_trimEnd, trim_trimStart, trim]
  rw [parse, String.toList_ofList, body_of_plain hplain, htrim,
    ofLines_lines_dedent hcut (by simp), cutMargin, hmargin,
    ← ofLines_append_blank (allBlank_map_drop hbehind (margin after)), List.cons_append,
    ← List.map_append]
  apply ofLines_congr
  rw [List.map_cons, List.map_cons, map_trimEnd_drop, map_trimEnd_drop, htail, hedge]

end RouteDoc.Comment
