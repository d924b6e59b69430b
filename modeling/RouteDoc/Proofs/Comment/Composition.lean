import RouteDoc.Proofs.Comment.Placement
import RouteDoc.Proofs.Text.Tabs
/-! A comment that is written behind another one. Cleaning is done to the whole text at once, but
summary and tags can be read off lines that are bared one by one. The lines of a text with tags behind
another text are the lines of both, and from its first line on the tags are its own. -/
namespace RouteDoc.Comment
open Text

def bare (l : List Char) : List Char := trim (expandTabs 0 l)

def bareLines (s : List Char) : List (List Char) := ((trimStart s).splitOn '\n').map bare

theorem bare_append {b : List Char} (hb : AllBlank b) (l : List Char) : bare (l ++ b) = bare l := by
  obtain ⟨k, hk⟩ := exists_expandTabs_append 0 l b
  rw [bare, hk, trim_append_blanks (hb.expandTabs k), bare]

theorem bare_blank {l : List Char} (hl : AllBlank l) : bare l = [] :=
  trim_eq_nil.mpr (hl.expandTabs 0)

theorem words_bare (l : List Char) : words (bare l) = words l := by
  rw [bare, words_trim, words_congr (splitWords_expandTabs 0 l)]

/-- Blanks behind a line come to blanks at its end and to blank lines. -/
theorem exists_bare_line {l b : List Char} (hl : '\n' ∉ l) (hb : AllBlank b) :
    ∃ bs : List (List Char), (∀ m ∈ bs, AllBlank m) ∧
      ((l ++ b).splitOn '\n').map bare = bare l :: bs := by
  by_cases hfeed : '\n' ∈ b
  · obtain ⟨x, y, rfl, hx⟩ := List.eq_append_cons_of_mem hfeed
    have hlx : '\n' ∉ l ++ x := by simp [hl, hx]
    refine ⟨(y.splitOn '\n').map bare, fun m hm => ?_, ?_⟩
    · obtain ⟨k, hk, rfl⟩ := List.mem_map.mp hm
      have hblank : AllBlank k := fun c hc => by
        have hy : c ∈ y := unlines_splitOn y ▸ mem_unlines hk hc
        exact hb c (by simp [hy])
      rw [bare_blank hblank]
      exact allBlank_nil
    · rw [← List.append_assoc, List.splitOn_append_cons_self_of_not_mem hlx, List.map_cons,
        bare_append (hb.sublist (List.sublist_append_left x _))]
  · have hlb : '\n' ∉ l ++ b := by simp [hl, hfeed]
    refine ⟨[], by simp, ?_⟩
    rw [List.splitOn_eq_singleton hlb, List.map_singleton, bare_append hb]

theorem exists_bare_append {b : List Char} (hb : AllBlank b) (s : List Char) :
    ∃ bs : List (List Char), (∀ m ∈ bs, AllBlank m) ∧
      ((s ++ b).splitOn '\n').map bare = (s.splitOn '\n').map bare ++ bs := by
  induction s using splitOn_induction '\n' with
  | piece l hl =>
    rw [List.splitOn_eq_singleton hl]
    exact exists_bare_line hl hb
  | cut l s hl ih =>
    obtain ⟨bs, hbs, heq⟩ := ih
    refine ⟨bs, hbs, ?_⟩
    rw [List.append_assoc, List.cons_append, List.splitOn_append_cons_self_of_not_mem hl,
      List.splitOn_append_cons_self_of_not_mem hl, List.map_cons, heq]
    rfl

/-- Summary and tags can be read off the bare lines. -/
theorem parse_bareLines {s : String} (hs : FeedsOnly s.toList)
    (hplain : ¬"/**".toList <+: trim s.toList) :
    (parse s).summary = (ofLines (bareLines s.toList)).summary ∧
      (parse s).tags = (ofLines (bareLines s.toList)).tags := by
  have hclean := ((hs.sublist (trim_sublist s.toList)).expandTabs 0).cleanLine
  have hparse : parse s = ofLines (cutMargin ((expandTabs 0 (trim s.toList)).splitOn '\n')) := by
    rw [parse_of_plain hplain, ← dedent_expandTabs, ← unlines_splitOn (expandTabs 0 _),
      ofLines_lines_dedent hclean (List.splitOn_ne_nil '\n' _), unlines_splitOn]
  -- bare lines keep the blanks at the end of the text, which cleaning cuts
  obtain ⟨b, hb, hend⟩ := exists_trimEnd (trimStart s.toList)
  obtain ⟨bs, hbs, hbare⟩ := exists_bare_append hb (trim s.toList)
  have hlines : ofLines (bareLines s.toList) =
      ofLines ((cutMargin ((expandTabs 0 (trim s.toList)).splitOn '\n')).map trim) := by
    rw [bareLines, hend, ← trim, hbare, ofLines_append_blank hbs, map_trim_cutMargin,
      splitOn_expandTabs, List.map_map]
    rfl
  obtain ⟨hsummary, htags⟩ :=
    ofLines_map_trim (cutMargin ((expandTabs 0 (trim s.toList)).splitOn '\n'))
  rw [hparse, hlines, hsummary, htags]
  exact ⟨rfl, rfl⟩

/-- The lines of a text behind another one come behind the lines of that one. -/
theorem ofLines_bareLines_append (s : List Char) {t : List Char}
    (ht : ∀ c ∈ t.head?, isBlank c = false) :
    ofLines (bareLines (s ++ '\n' :: t)) = ofLines (bareLines s ++ bareLines t) := by
  have hstart : trimStart t = t := by
    cases t with
    | nil => rfl
    | cons c r => exact trimStart_of_head (ht c rfl) r
  by_cases hs : AllBlank s
  · have hblank : ∀ l ∈ bareLines s, AllBlank l := by
      rw [bareLines, trimStart_eq_nil.mpr hs]
      simp [bare_blank allBlank_nil, allBlank_nil]
    rw [ofLines_blank_append hblank, bareLines, trimStart_append hs, trimStart_of_blank rfl, bareLines]
  · rw [bareLines, trimStart_append_of_inked hs, List.splitOn_append_cons_self, List.map_append,
      ← bareLines, bareLines, bareLines, hstart]

/-- Lines that start with a tag have their sections to themselves. -/
theorem sections_append {ms : List (List Char)} (hms : (sections ms).1 = []) (ls : List (List Char)) :
    sections (ls ++ ms) = ((sections ls).1, (sections ls).2 ++ (sections ms).2) := by
  induction ls with
  | nil => exact Prod.ext hms rfl
  | cons l ls ih =>
    rw [List.cons_append]
    cases ht : tagLine? (trim l) with
    | none => rw [sections_plain ht, sections_plain ht, ih]
    | some t => rw [sections_tag ht, sections_tag ht, ih]; rfl

theorem ofLines_append {ms : List (List Char)} (hms : (sections ms).1 = []) (ls : List (List Char)) :
    (ofLines (ls ++ ms)).summary = (ofLines ls).summary ∧
      (ofLines (ls ++ ms)).tags = (ofLines ls).tags ++ (ofLines ms).tags := by
  rw [ofLines_eq, ofLines_eq, ofLines_eq, sections_append hms]
  exact ⟨rfl, List.map_append⟩

theorem blockMark_trim_iff {s : List Char} :
    "/**".toList <+: trim s ↔ "/**".toList <+: trimStart s :=
  prefix_trimEnd_iff fun c hc => inked_blockMark c (List.mem_of_getLast? hc)

structure StartsTag (s : List Char) : Prop where
  head : s.head? = some '@'
  firstLine : ∃ l ∈ (lines s).head?, ∃ name rest, IsTagLine l name rest

namespace StartsTag
variable {s : List Char}

theorem inked (h : StartsTag s) : ∀ c ∈ s.head?, isBlank c = false := by
  rw [h.head]
  intro c hc
  obtain rfl := Option.some.inj hc
  rfl

theorem plain (h : StartsTag s) : ¬"/**".toList <+: trim s := by
  obtain ⟨r, rfl⟩ := List.head?_eq_some_iff.mp h.head
  rw [blockMark_trim_iff, trimStart_of_head rfl]
  simp

theorem sections_bareLines (h : StartsTag s) (hs : FeedsOnly s) : (sections (bareLines s)).1 = [] := by
  obtain ⟨r, rfl⟩ := List.head?_eq_some_iff.mp h.head
  obtain ⟨l, hl, name, rest, htag⟩ := h.firstLine
  rw [head?_lines hs (by simp)] at hl
  obtain ⟨ls, hls⟩ := List.head?_eq_some_iff.mp hl
  have hwords := tagWords?_words (bare l)
  rw [words_bare, htag.tagWords?] at hwords
  obtain ⟨t, ht, -⟩ := Option.map_eq_some_iff.mp hwords.symm
  rw [bareLines, trimStart_of_head rfl, hls, List.map_cons, sections_tag ht]

end StartsTag

/-- A text with tags behind it is no more of a block than it was. -/
theorem plain_append {s t : List Char} (hs : ¬"/**".toList <+: trim s) (ht : StartsTag t) :
    ¬"/**".toList <+: trim (s ++ '\n' :: t) := by
  by_cases hblank : AllBlank s
  · have hfeed : AllBlank (s ++ ['\n']) := hblank.append (by simp [AllBlank, isBlank])
    rw [List.append_cons, trim_blanks_append hfeed]
    exact ht.plain
  · rw [blockMark_trim_iff] at hs ⊢
    rw [trimStart_append_of_inked hblank]
    exact mt (prefix_of_prefix_separator (by decide)) hs

theorem toList_append_feed (s t : String) :
    (s ++ "\n" ++ t).toList = s.toList ++ '\n' :: t.toList := by
  simp

section
variable {s : String} (hs : FeedsOnly s.toList) (hplain : ¬"/**".toList <+: trim s.toList)
include hs hplain

theorem parse_append {t : String} (ht : FeedsOnly t.toList) (htag : StartsTag t.toList) :
    (parse (s ++ "\n" ++ t)).summary = (parse s).summary ∧
      (parse (s ++ "\n" ++ t)).tags = (parse s).tags ++ (parse t).tags := by
  have hfeeds : FeedsOnly (s ++ "\n" ++ t).toList := toList_append_feed s t ▸ hs.append_feed ht
  obtain ⟨hsummary, htags⟩ :=
    parse_bareLines hfeeds (toList_append_feed s t ▸ plain_append hplain htag)
  obtain ⟨hsummary', htags'⟩ := parse_bareLines hs hplain
  obtain ⟨hfront, hjoined⟩ := ofLines_append (htag.sections_bareLines ht) (bareLines s.toList)
  rw [toList_append_feed, ofLines_bareLines_append _ htag.inked] at hsummary htags
  rw [hsummary, hfront, hsummary', htags, hjoined, htags', (parse_bareLines ht htag.plain).2]
  exact ⟨rfl, rfl⟩

def withTags (s : String) (ts : List String) : String := ts.foldl (fun s t => s ++ "\n" ++ t) s

theorem parse_withTags {ts : List String}
    (hts : ∀ t ∈ ts, FeedsOnly t.toList ∧ StartsTag t.toList) :
    (parse (withTags s ts)).summary = (parse s).summary ∧
      (parse (withTags s ts)).tags = (parse s).tags ++ ts.flatMap fun t => (parse t).tags := by
  induction ts generalizing s with
  | nil => simp [withTags]
  | cons t ts ih =>
    obtain ⟨⟨ht, htag⟩, hts⟩ := List.forall_mem_cons.mp hts
    have hfeeds : FeedsOnly (s ++ "\n" ++ t).toList := toList_append_feed s t ▸ hs.append_feed ht
    obtain ⟨hsummary, htags⟩ := ih hfeeds (toList_append_feed s t ▸ plain_append hplain htag) hts
    obtain ⟨hsummary', htags'⟩ := parse_append hs hplain ht htag
    rw [withTags, List.foldl_cons, ← withTags, hsummary, htags, hsummary', htags', List.flatMap_cons,
      List.append_assoc]
    exact ⟨rfl, rfl⟩

end

/-- Tags that are written behind a text leave its summary and its tags as they are, and are read as if
they stood alone, however many more there are. -/
theorem parse_composes {s : String} (hs : FeedsOnly s.toList)
    (hplain : ¬"/**".toList <+: trim s.toList) :
    (∀ t : String, FeedsOnly t.toList → StartsTag t.toList →
      (parse (s ++ "\n" ++ t)).tags = (parse s).tags ++ (parse t).tags ∧
        (parse (s ++ "\n" ++ t)).summary = (parse s).summary) ∧
    ∀ ts : List String, (∀ t ∈ ts, FeedsOnly t.toList ∧ StartsTag t.toList) →
      (parse (withTags s ts)).tags = (parse s).tags ++ (ts.flatMap fun t => (parse t).tags) ∧
        (parse (withTags s ts)).summary = (parse s).summary :=
  ⟨fun _ ht htag => (parse_append hs hplain ht htag).symm,
    fun _ hts => (parse_withTags hs hplain hts).symm⟩

def tabbedText : String := "Title\n\tmore\n  @a x\ty\n\n "

theorem parse_composes_tabbedText :
    (parse (tabbedText ++ "\n" ++ "@b\tz\n   w")).tags =
        [⟨"a", "x  y"⟩, ⟨"b", "z\nw"⟩] ∧
      (parse (tabbedText ++ "\n" ++ "@b\tz\n   w")).summary = "Title more" ∧
      (parse (withTags tabbedText ["@b\tz\n   w", "@c"])).tags =
        (parse tabbedText).tags ++ ((parse "@b\tz\n   w").tags ++ (parse "@c").tags) := by
  have hs : FeedsOnly tabbedText.toList := by decide
  have hplain : ¬"/**".toList <+: trim tabbedText.toList := by decide
  have hb : FeedsOnly "@b\tz\n   w".toList ∧ StartsTag "@b\tz\n   w".toList := by
    have hline : IsTagLine "@b\tz".toList ['b'] ['\t', 'z'] :=
      ⟨by decide, ⟨'b', [], rfl, by decide, by simp⟩, by simp [isBlank]⟩
    exact ⟨by decide, rfl, _, rfl, _, _, hline⟩
  have hc : FeedsOnly "@c".toList ∧ StartsTag "@c".toList := by
    have hline : IsTagLine "@c".toList ['c'] [] :=
      ⟨by decide, ⟨'c', [], rfl, by decide, by simp⟩, by simp⟩
    exact ⟨by decide, rfl, _, rfl, _, _, hline⟩
  obtain ⟨hone, hmany⟩ := parse_composes hs hplain
  obtain ⟨htags, hsummary⟩ := hone _ hb.1 hb.2
  obtain ⟨hall, -⟩ := hmany ["@b\tz\n   w", "@c"]
    (List.forall_mem_cons.mpr ⟨hb, List.forall_mem_cons.mpr ⟨hc, by simp⟩⟩)
  exact ⟨htags.trans (by decide), hsummary.trans (by decide), hall.trans (by simp)⟩

end RouteDoc.Comment
