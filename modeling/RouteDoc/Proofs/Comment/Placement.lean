import RouteDoc.Proofs.Comment.Layout
import RouteDoc.Proofs.Text.LineFeeds
/-! The place of a comment in its source. How deep it is nested there, how the lines of the source
end and which blanks an editor has left behind them make no difference to the comment that is read. -/
namespace RouteDoc.Comment
open Text

theorem inked_blockMark : ∀ c ∈ "/**".toList, isBlank c = false := inked_of_all (by decide)

/-- Only the first word of a text tells whether it is a block. -/
theorem plain_of_words {s t : List Char} (h : words t = words s)
    (hplain : ¬"/**".toList <+: trim s) : ¬"/**".toList <+: trim t := by
  rwa [prefix_trim_iff inked_blockMark, h, ← prefix_trim_iff inked_blockMark]

theorem parse_of_plain {s : String} (hplain : ¬"/**".toList <+: trim s.toList) :
    parse s = ofLines (lines (dedent (trim s.toList))) := by
  rw [parse, body_of_plain hplain]

theorem parse_withFeeds {feed : List Char} (hfeed : AllBlank feed) (hne : feed ≠ []) {s : List Char}
    (hplain : ¬"/**".toList <+: trim s) :
    parse (String.ofList (withFeeds feed s)) =
      ofLines (lines (dedent (withFeeds feed (trim s)))) := by
  have hwords : words (withFeeds feed s) = words s := words_congr (splitWords_withFeeds hfeed hne s)
  rw [parse, String.toList_ofList, body_of_plain (plain_of_words hwords hplain),
    trim_withFeeds hfeed]

theorem allBlank_map_append {a : List Char} (ha : AllBlank a) {ls : List (List Char)}
    (h : ∀ l ∈ ls, AllBlank l) : ∀ l ∈ ls.map (a ++ ·), AllBlank l := by
  intro l hl
  obtain ⟨k, hk, rfl⟩ := List.mem_map.mp hl
  exact ha.append (h k hk)

/-- The lines after the first can be moved together. -/
theorem ofLines_cutMargin_shift {a : List Char} (ha : AllBlank a) (first : List Char)
    (ls : List (List Char)) :
    ofLines (cutMargin (first :: ls.map (a ++ ·))) = ofLines (cutMargin (first :: ls)) := by
  rw [cutMargin, cutMargin]
  -- without text behind the first line there is no margin to grow with the indentation
  by_cases hb : ∀ l ∈ ls, AllBlank l
  · have hb' := allBlank_map_append ha hb
    rw [ofLines_cons_blank _ (allBlank_map_drop hb' _), ofLines_cons_blank _ (allBlank_map_drop hb _)]
  · push Not at hb
    obtain ⟨l, hl, hinked⟩ := hb
    rw [map_drop_shift ha hl hinked]

theorem parse_indented {s : String} (hs : PlainText s.toList)
    (hplain : ¬"/**".toList <+: trim s.toList) (k : Nat) :
    parse (String.ofList (indented k s.toList)) = parse s := by
  have hfeed : AllBlank ('\n' :: List.replicate k ' ') := allBlank_cons.mpr ⟨rfl, allBlank_spaces k⟩
  have hclean := (hs.sublist (trim_sublist s.toList)).cleanLine
  obtain ⟨l, ls, hls⟩ := List.exists_cons_of_ne_nil (List.splitOn_ne_nil '\n' (trim s.toList))
  rw [hls] at hclean
  have hmoved : ∀ m ∈ l :: ls.map (List.replicate k ' ' ++ ·), CleanLine m := by
    intro m hm
    cases List.mem_cons.mp hm with
    | inl hm => exact hm ▸ hclean l (by simp)
    | inr hm =>
      obtain ⟨n, hn, rfl⟩ := List.mem_map.mp hm
      exact (cleanLine_spaces k).append (hclean n (List.mem_cons_of_mem l hn))
  rw [indented, parse_withFeeds hfeed (by simp) hplain, ← indented, parse_of_plain hplain,
    ← unlines_splitOn (trim s.toList), hls,
    indented_unlines k fun m hm => (hclean m hm).newline_not_mem,
    ofLines_lines_dedent hmoved (by simp), ofLines_lines_dedent hclean (by simp),
    ofLines_cutMargin_shift (allBlank_spaces k)]

theorem parse_returned {s : String} (hs : PlainText s.toList)
    (hplain : ¬"/**".toList <+: trim s.toList) :
    parse (String.ofList (returned s.toList)) = parse s := by
  have hfeed : AllBlank ['\r', '\n'] := by simp [AllBlank, isBlank]
  have htrim : PlainText (trim s.toList) := hs.sublist (trim_sublist s.toList)
  rw [returned, parse_withFeeds hfeed (by simp) hplain, ← returned,
    lines_dedent_returned htrim (trimmed_trim s.toList), parse_of_plain hplain]

theorem forall_allBlank_of_map_trimEnd {ls ms : List (List Char)}
    (h : ms.map trimEnd = ls.map trimEnd) (hls : ∀ l ∈ ls, AllBlank l) : ∀ m ∈ ms, AllBlank m := by
  intro m hm
  obtain ⟨l, hl, heq⟩ := List.mem_map.mp (h ▸ List.mem_map_of_mem hm)
  exact allBlank_trimEnd.mp (heq ▸ allBlank_trimEnd.mpr (hls l hl))

/-- Blanks at the ends of a text's lines make no difference. -/
theorem parse_congr {ls ms : List (List Char)} (hls : ∀ l ∈ ls, CleanLine l)
    (hms : ∀ m ∈ ms, CleanLine m) (hplain : ¬"/**".toList <+: trim (unlines ls))
    (hplain' : ¬"/**".toList <+: trim (unlines ms)) (h : ms.map trimEnd = ls.map trimEnd) :
    parse (String.ofList (unlines ms)) = parse (String.ofList (unlines ls)) := by
  by_cases hb : ∀ l ∈ ls, AllBlank l
  · rw [parse_blank hb, parse_blank (forall_allBlank_of_map_trimEnd h hb)]
  · push Not at hb
    obtain ⟨l, hl, hinked⟩ := hb
    obtain ⟨before, first, after, rfl, hbefore, hfirst⟩ := exists_first_inked hl hinked
    rw [List.map_append, List.map_cons] at h
    obtain ⟨before', rest, rfl, hfront, hrest⟩ := List.map_eq_append_iff.mp h
    obtain ⟨first', after', rfl, hmid, hbehind⟩ := List.map_eq_cons_iff.mp hrest
    have hfirst' : ¬AllBlank first' := by rwa [← allBlank_trimEnd, hmid, allBlank_trimEnd]
    have hedge : trim first' = trim first := by rw [← trim_trimEnd first', hmid, trim_trimEnd]
    rw [parse_unlines hls hbefore hfirst hplain,
      parse_unlines hms (forall_allBlank_of_map_trimEnd hfront hbefore) hfirst' hplain',
      margin_congr hbehind]
    apply ofLines_congr
    rw [List.map_cons, List.map_cons, map_trimEnd_drop, map_trimEnd_drop, hbehind, ← trim, ← trim,
      hedge]

theorem parse_padded {s : String} (hs : PlainText s.toList)
    (hplain : ¬"/**".toList <+: trim s.toList) {t : List Char} (h : Padded s.toList t) :
    parse (String.ofList t) = parse s := by
  have hplain' : ¬"/**".toList <+: trim t := plain_of_words (words_congr h.splitWords_eq) hplain
  have hread := parse_congr hs.cleanLine (h.plainText hs).cleanLine
    (by rwa [unlines_splitOn]) (by rwa [unlines_splitOn]) h.map_trimEnd_splitOn
  rwa [unlines_splitOn, unlines_splitOn, String.ofList_toList] at hread

/-- A comment is read alike at every depth in its source, with either kind of line end, and with
spaces left behind its lines. -/
theorem parse_placed (s : String) (hs : PlainText s.toList)
    (hplain : ¬"/**".toList <+: trim s.toList) :
    (∀ k, parse (String.ofList (indented k s.toList)) = parse s) ∧
      parse (String.ofList (returned s.toList)) = parse s ∧
      ∀ t, Padded s.toList t → parse (String.ofList t) = parse s :=
  ⟨parse_indented hs hplain, parse_returned hs hplain, fun _ => parse_padded hs hplain⟩

def nestedText : String := "A\n  b\n\n   c\n  @d"

def paddedText : List Char := "A \n  b\n  \n   c\n  @d   ".toList

theorem nestedText_padded : Padded nestedText.toList paddedText :=
  .char 'A' <| .feed 1 <| .char ' ' <| .char ' ' <| .char 'b' <| .feed 0 <| .feed 2 <|
    .char ' ' <| .char ' ' <| .char ' ' <| .char 'c' <| .feed 0 <| .char ' ' <| .char ' ' <|
    .char '@' <| .char 'd' <| .done 3

theorem parse_placed_nestedText :
    PlainText nestedText.toList ∧ ¬"/**".toList <+: trim nestedText.toList ∧
      parse (String.ofList (indented 3 nestedText.toList)) = parse nestedText ∧
      parse (String.ofList (returned nestedText.toList)) = parse nestedText ∧
      parse (String.ofList paddedText) = parse nestedText := by
  have hs : PlainText nestedText.toList := by decide
  have hplain : ¬"/**".toList <+: trim nestedText.toList := by decide
  obtain ⟨hindented, hreturned, hpadded⟩ := parse_placed nestedText hs hplain
  exact ⟨hs, hplain, hindented 3, hreturned, hpadded paddedText nestedText_padded⟩

end RouteDoc.Comment
