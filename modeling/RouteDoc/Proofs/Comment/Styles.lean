import RouteDoc.Proofs.Comment.Layout
/-! The two styles of comments. Lines written as plain text and the same lines written as a block,
each behind an asterisk, make the same comment. Only the margin can tell them apart: in a block the
first line has a say in it, in a plain text it stands beside the opening delimiter and has none. -/
namespace RouteDoc.Comment
open Text

def plainText (ls : List (List Char)) : String := String.ofList (unlines ls)

def decorated (l : List Char) : List Char := ' ' :: '*' :: ' ' :: l

def blockText (ls : List (List Char)) : String :=
  String.ofList (['/', '*', '*'] ++ ls.flatMap ('\n' :: decorated ·) ++ ['\n', ' ', '*', '/'])

/-- The first line that is not blank does not stand out to the left: no line with text comes after
it, or one that is indented no deeper. -/
def Level (ls : List (List Char)) : Prop :=
  ∀ before first after, ls = before ++ first :: after → (∀ l ∈ before, AllBlank l) →
    ¬AllBlank first → (∀ l ∈ after, AllBlank l) ∨ ∃ l ∈ after, ¬AllBlank l ∧ indent l ≤ indent first

theorem body_of_block {s r : List Char} (h : trim s = '/' :: '*' :: '*' :: r) :
    body s = unlines ((lines (dropClosing r)).map undecorate) := by
  simp only [body, h]

theorem dropClosing_append (s : List Char) : dropClosing (s ++ ['*', '/']) = s := by
  have hsuffix : ['*', '/'].isSuffixOf (s ++ ['*', '/']) = true :=
    List.isSuffixOf_iff_suffix.mpr (List.suffix_append s _)
  rw [dropClosing, if_pos hsuffix]
  simp

theorem undecorate_decorated (l : List Char) : undecorate (decorated l) = l := rfl

theorem unlines_between (first last : List Char) (mid : List (List Char)) :
    unlines (first :: (mid ++ [last])) = first ++ mid.flatMap ('\n' :: ·) ++ '\n' :: last := by
  induction mid generalizing first with
  | nil => simp [unlines]
  | cons l mid ih => simp [unlines_cons_cons, ih l]

theorem body_blockText {ls : List (List Char)} (h : ∀ l ∈ ls, CleanLine l) :
    body (blockText ls).toList = unlines ([] :: (ls ++ [[' ']])) := by
  have hinside : unlines ([] :: (ls.map decorated ++ [[' ']])) =
      ls.flatMap ('\n' :: decorated ·) ++ ['\n', ' '] := by
    rw [unlines_between, List.flatMap_map]
    rfl
  have htext : trim (blockText ls).toList = '/' :: '*' :: '*' ::
      (unlines ([] :: (ls.map decorated ++ [[' ']])) ++ ['*', '/']) := by
    have hsplit : (blockText ls).toList = '/' :: '*' :: '*' ::
        (unlines ([] :: (ls.map decorated ++ [[' ']])) ++ ['*', '/']) := by
      rw [blockText, String.toList_ofList, hinside]
      simp
    rw [hsplit]
    refine Trimmed.trim_eq ⟨by simp [isBlank], ?_⟩
    rw [← List.cons_append, ← List.cons_append, ← List.cons_append]
    exact last_append (by simp [isBlank]) (by simp)
  have hlines : ∀ l ∈ [] :: (ls.map decorated ++ [[' ']]), OneLine l := by
    intro l hl
    simp only [List.mem_cons, List.mem_append, List.mem_map, List.not_mem_nil, or_false] at hl
    rcases hl with rfl | ⟨k, hk, rfl⟩ | rfl
    · exact CleanLine.nil.oneLine
    · have hmark : CleanLine [' ', '*', ' '] := ⟨by simp [OneLine, isLineEnd], by simp⟩
      exact (hmark.append (h k hk)).oneLine
    · simp [OneLine, isLineEnd]
  have hcut : ([] :: (ls.map decorated ++ [[' ']])).map undecorate = [] :: (ls ++ [[' ']]) := by
    have hmap : (ls.map decorated).map undecorate = ls := by
      rw [List.map_map]
      exact (List.map_congr_left fun l _ => undecorate_decorated l).trans (List.map_id ls)
    rw [List.map_cons, List.map_append, hmap]
    rfl
  rw [body_of_block htext, dropClosing_append, lines_unlines hlines, hcut]
  exact last_ne_nil (by simp) ([] :: ls.map decorated)

/-- A block is read with the margin of all its lines. -/
theorem parse_block {ls : List (List Char)} (h : ∀ l ∈ ls, CleanLine l) :
    parse (blockText ls) = ofLines (ls.map (·.drop (margin ls))) := by
  have hblank : ∀ l ∈ [[' ']], AllBlank l := by simp [AllBlank, isBlank]
  have hclean : ∀ l ∈ [] :: (ls ++ [[' ']]), CleanLine l := by
    intro l hl
    simp only [List.mem_cons, List.mem_append, List.not_mem_nil, or_false] at hl
    rcases hl with rfl | hl | rfl
    · exact CleanLine.nil
    · exact h l hl
    · exact CleanLine.nil.space
  have hlast := allBlank_map_drop hblank (margin ls)
  have hempty : ∀ l ∈ [trimStart []], AllBlank l := by simp [trimStart, AllBlank]
  rw [parse, body_blockText h, ofLines_lines_dedent hclean (by simp), cutMargin,
    margin_append_blank ls hblank, List.map_append, ← List.cons_append, ofLines_append_blank hlast,
    ← List.singleton_append, ofLines_blank_append hempty]

theorem trim_drop_margin {ls : List (List Char)} {l : List Char} (hl : l ∈ ls) :
    trim (l.drop (margin ls)) = trim l := trim_drop (allBlank_take_margin hl)

theorem parse_block_inked {before : List (List Char)} {first : List Char} {after : List (List Char)}
    (hclean : ∀ l ∈ before ++ first :: after, CleanLine l) (hbefore : ∀ l ∈ before, AllBlank l)
    (hfirst : ¬AllBlank first) :
    parse (blockText (before ++ first :: after)) =
      ofLines (trimStart first :: after.map (·.drop (margin (before ++ first :: after)))) := by
  have htrim : trim (first.drop (margin (before ++ first :: after))) = trim first :=
    trim_drop_margin (by simp)
  rw [parse_block hclean, List.map_append, List.map_cons,
    ofLines_blank_append (allBlank_map_drop hbefore _)]
  refine ofLines_first ?_ (mt (allBlank_of_trim_eq htrim).mp hfirst) _
  rw [htrim, trim_trimStart]

/-- Indentation that a margin cuts makes no difference to summary and tags. -/
theorem summary_tags_of_drop (first : List Char) {after : List (List Char)} {m n : Nat}
    (hm : ∀ l ∈ after, AllBlank (l.take m)) (hn : ∀ l ∈ after, AllBlank (l.take n)) :
    (ofLines (first :: after.map (·.drop m))).summary =
        (ofLines (first :: after.map (·.drop n))).summary ∧
      (ofLines (first :: after.map (·.drop m))).tags =
        (ofLines (first :: after.map (·.drop n))).tags := by
  have hlines : (first :: after.map (·.drop m)).map trim =
      (first :: after.map (·.drop n)).map trim := by
    rw [List.map_cons, List.map_cons, List.map_map, List.map_map]
    refine congrArg (trim first :: ·) (List.map_congr_left fun l hl => ?_)
    exact (trim_drop (hm l hl)).trans (trim_drop (hn l hl)).symm
  obtain ⟨hsummary, htags⟩ := ofLines_map_trim (first :: after.map (·.drop m))
  obtain ⟨hsummary', htags'⟩ := ofLines_map_trim (first :: after.map (·.drop n))
  exact ⟨by rw [← hsummary, hlines, hsummary'], by rw [← htags, hlines, htags']⟩

/-- A block comment and the plain text of its lines have one summary and the same tags, and the same
details when the first line does not stand out to the left. -/
theorem styles_agree (ls : List (List Char)) (hclean : ∀ l ∈ ls, CleanLine l)
    (hplain : ¬"/**".toList <+: trim (unlines ls)) :
    (parse (blockText ls)).summary = (parse (plainText ls)).summary ∧
      (parse (blockText ls)).tags = (parse (plainText ls)).tags ∧
      (Level ls → (parse (blockText ls)).details = (parse (plainText ls)).details) := by
  by_cases hb : ∀ l ∈ ls, AllBlank l
  · rw [parse_block hclean, ofLines_blank (allBlank_map_drop hb _), plainText, parse_blank hb]
    exact ⟨rfl, rfl, fun _ => rfl⟩
  · push Not at hb
    obtain ⟨l, hl, hinked⟩ := hb
    obtain ⟨before, first, after, rfl, hbefore, hfirst⟩ := exists_first_inked hl hinked
    rw [plainText, parse_unlines hclean hbefore hfirst hplain,
      parse_block_inked hclean hbefore hfirst]
    obtain ⟨hsummary, htags⟩ := summary_tags_of_drop (trimStart first)
      (m := margin (before ++ first :: after)) (n := margin after)
      (fun k hk => allBlank_take_margin (by simp [hk])) (fun k hk => allBlank_take_margin hk)
    refine ⟨hsummary, htags, fun hlevel => ?_⟩
    rcases hlevel before first after rfl hbefore hfirst with hblank | ⟨k, hk, hkink, hle⟩
    · have halone (n : Nat) : ofLines (trimStart first :: after.map (·.drop n)) =
          ofLines [trimStart first] := by
        rw [ofLines_cons_blank _ (allBlank_map_drop hblank n)]
      rw [halone, halone]
    · rw [margin_blank_append hbefore, margin_cons hk hkink hle]

def mixedLines : List (List Char) :=
  ["  Title".toList, "/ more".toList, [], "   * item".toList, "  @note x".toList, " */ y".toList]

theorem mixedLines_level : Level mixedLines := by
  intro before first after h hbefore hfirst
  cases before with
  | nil =>
    obtain ⟨rfl, rfl⟩ := List.cons.inj h
    exact .inr ⟨"/ more".toList, by simp, by simp [AllBlank, isBlank], by decide⟩
  | cons l before =>
    obtain ⟨rfl, -⟩ := List.cons.inj h
    have hblank := hbefore _ List.mem_cons_self
    exact absurd hblank (by simp [AllBlank, isBlank])

theorem styles_agree_mixed :
    (∀ l ∈ mixedLines, CleanLine l) ∧ ¬"/**".toList <+: trim (unlines mixedLines) ∧
      (parse (blockText mixedLines)).summary = (parse (plainText mixedLines)).summary ∧
      (parse (blockText mixedLines)).tags = (parse (plainText mixedLines)).tags ∧
      (parse (blockText mixedLines)).details = (parse (plainText mixedLines)).details :=
  have hclean : ∀ l ∈ mixedLines, CleanLine l := by decide
  have hplain : ¬"/**".toList <+: trim (unlines mixedLines) := by decide
  have h := styles_agree mixedLines hclean hplain
  ⟨hclean, hplain, h.1, h.2.1, h.2.2 mixedLines_level⟩

/-- A block whose lines begin with a slash, an asterisk and an at sign. -/
example : (parse (blockText mixedLines)).tags.map (·.name) = ["note"] := by decide +kernel

end RouteDoc.Comment
