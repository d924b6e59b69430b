import RouteDoc.Proofs.Comment.Conservation
import RouteDoc.Proofs.Comment.Layout
/-! Comments written out. A comment is written as its summary, its details and its tags with blank
lines between them. What reading has made of a text keeps its shape on the written lines: the lines of
a tag are read as that tag, a paragraph holds no blank line, and no line of summary and details can be
taken for the start of a tag. -/
namespace RouteDoc
open Text

def Tag.written (t : Tag) : List Char :=
  '@' :: (t.name.toList ++ if t.content = "" then [] else ' ' :: t.content.toList)

namespace Comment

def render (c : Comment) : String :=
  String.ofList
    (unlines ([c.summary.toList, [], c.details.toList, []] ++ c.tags.map Tag.written))

structure Cut (t : List Char × List (List Char)) : Prop where
  isName : IsName t.1
  clean : ∀ l ∈ t.2, CleanLine l
  trimmed : ∀ l ∈ t.2, Trimmed l
  plain : ∀ l ∈ t.2.tail, PlainLine l

theorem IsTagLine.text_sublist {line name rest : List Char} (h : IsTagLine line name rest) :
    (trimStart rest).Sublist line := by
  have hrest : rest.Sublist (trim line) := by
    rw [h.text]
    exact (List.sublist_append_right name rest).trans (List.sublist_cons_self _ _)
  exact (trimStart_sublist rest).trans (hrest.trans (trim_sublist line))

theorem IsTagLine.text_trimmed {line name rest : List Char} (h : IsTagLine line name rest) :
    Trimmed (trimStart rest) := by
  refine ⟨fun c hc => head_trimStart hc, fun c hc => ?_⟩
  obtain ⟨a, -, ha⟩ := exists_trimStart rest
  have hne : trimStart rest ≠ [] := by
    intro hnil
    simp [hnil] at hc
  have hline : trim line = '@' :: (name ++ a) ++ trimStart rest := by
    rw [h.text, List.cons_append, List.append_assoc, ← ha]
  apply (trimmed_trim line).last
  rw [hline, List.getLast?_append_of_ne_nil _ hne]
  exact hc

theorem plain_of_mem_sections {ls : List (List Char)} (h : ∀ l ∈ ls, CleanLine l) :
    ∀ l ∈ (sections ls).1, PlainLine l :=
  fun l hl => ((clipping_of_sections fun m hm => (h m hm).oneLine).1 l hl).2

theorem cut_of_mem_sections {ls : List (List Char)} (h : ∀ l ∈ ls, CleanLine l) :
    ∀ t ∈ (sections ls).2, Cut t := by
  induction ls with
  | nil => simp [sections]
  | cons l ls ih =>
    have hls : ∀ m ∈ ls, CleanLine m := fun m hm => h m (List.mem_cons_of_mem l hm)
    have hi := ih hls
    cases ht : tagLine? (trim l) with
    | none => rwa [sections_plain ht]
    | some t =>
      obtain ⟨rest, hline, htext⟩ := isTagLine_of_tagLine? (t := t.2) ht
      rw [sections_tag ht, htext]
      refine List.forall_mem_cons.mpr ⟨⟨hline.isName, ?_, ?_, ?_⟩, hi⟩
      · refine List.forall_mem_cons.mpr ⟨(h l (by simp)).sublist hline.text_sublist, ?_⟩
        intro m hm
        obtain ⟨k, hk, rfl⟩ := List.mem_map.mp hm
        exact (hls k (mem_of_mem_sections hk)).sublist (trim_sublist k)
      · refine List.forall_mem_cons.mpr ⟨hline.text_trimmed, ?_⟩
        intro m hm
        obtain ⟨k, -, rfl⟩ := List.mem_map.mp hm
        exact trimmed_trim k
      · intro m hm
        obtain ⟨k, hk, rfl⟩ := List.mem_map.mp hm
        exact (plain_of_mem_sections hls k hk).trim

def tagLines (name : List Char) : List (List Char) → List (List Char)
  | [] => ['@' :: name]
  | l :: ls => ('@' :: (name ++ ' ' :: l)) :: ls

theorem toList_content_tagOf {t : List Char × List (List Char)} (h : Cut t) :
    (tagOf t).content.toList = unlines (trimEmpty t.2) := by
  rw [tagOf, String.toList_ofList, trim_unlines_trimmed h.trimmed]

theorem unlines_ne_nil {l : List Char} (h : l ≠ []) (ls : List (List Char)) :
    unlines (l :: ls) ≠ [] := by
  by_cases hls : ls = []
  · simpa [hls, unlines] using h
  · simp [unlines_cons_of_ne_nil l hls]

theorem unlines_append_cons (a l : List Char) (ls : List (List Char)) :
    unlines ((a ++ l) :: ls) = a ++ unlines (l :: ls) := by
  by_cases hls : ls = []
  · simp [hls, unlines]
  · rw [unlines_cons_of_ne_nil _ hls, unlines_cons_of_ne_nil _ hls, List.append_assoc]

theorem written_tagOf {t : List Char × List (List Char)} (h : Cut t) :
    (tagOf t).written = unlines (tagLines t.1 (trimEmpty t.2)) := by
  have hname : (tagOf t).name.toList = t.1 := String.toList_ofList
  have hcontent := toList_content_tagOf h
  have hempty : (tagOf t).content = "" ↔ unlines (trimEmpty t.2) = [] := by
    rw [← hcontent, String.toList_eq_nil_iff]
  rw [Tag.written, hname, hcontent]
  cases hk : trimEmpty t.2 with
  | nil =>
    rw [hk] at hempty
    rw [if_pos (hempty.mpr rfl), List.append_nil]
    simp [tagLines, unlines]
  | cons l ls =>
    have hne : unlines (l :: ls) ≠ [] := unlines_ne_nil (head_trimEmpty t.2 l (by simp [hk])) ls
    rw [hk] at hempty
    have hsplit : '@' :: (t.1 ++ ' ' :: l) = '@' :: (t.1 ++ [' ']) ++ l := by simp
    rw [if_neg (mt hempty.mp hne), tagLines, hsplit, unlines_append_cons]
    simp

theorem sections_append_plain {before : List (List Char)} (h : ∀ l ∈ before, PlainLine l)
    (ls : List (List Char)) :
    sections (before ++ ls) = (before ++ (sections ls).1, (sections ls).2) := by
  induction before with
  | nil => rfl
  | cons l before ih =>
    have hl : tagLine? (trim l) = none := plainLine_iff_tagLine?.mp (h l (by simp))
    rw [List.cons_append, sections_plain hl, ih fun m hm => h m (List.mem_cons_of_mem l hm)]
    rfl

/-- The lines of a tag are read as that tag, in front of other tags. -/
theorem sections_tagLines {t : List Char × List (List Char)} (h : Cut t) {ls : List (List Char)}
    (hls : (sections ls).1 = []) :
    (sections (tagLines t.1 (trimEmpty t.2) ++ ls)).1 = [] ∧
      (sections (tagLines t.1 (trimEmpty t.2) ++ ls)).2.map tagOf =
        tagOf t :: (sections ls).2.map tagOf := by
  have hcontent : trim (unlines t.2) = unlines (trimEmpty t.2) := trim_unlines_trimmed h.trimmed
  cases hk : trimEmpty t.2 with
  | nil =>
    have hbare : tagOf (t.1, [[]]) = tagOf t := by
      rw [tagOf, tagOf, hcontent, hk]
      rfl
    rw [tagLines, List.singleton_append, sections_tag (tagLine?_bare h.isName), hls]
    exact ⟨rfl, by rw [List.map_cons, List.map_nil, hbare]⟩
  | cons l rest =>
    have hmem : ∀ m ∈ l :: rest, m ∈ t.2 := by
      rw [← hk]
      exact fun m hm => (trimEmpty_sublist t.2).subset hm
    have hplain : ∀ m ∈ rest, PlainLine m :=
      fun m hm => h.plain m (mem_tail_of_mem_trimEmpty (by simpa [hk] using hm))
    have hrest : rest.map trim = rest := by
      refine (List.map_congr_left fun m hm => ?_).trans (List.map_id rest)
      exact (h.trimmed m (hmem m (List.mem_cons_of_mem l hm))).trim_eq
    have hsame : tagOf (t.1, l :: rest) = tagOf t := by
      rw [tagOf, tagOf, ← hk, ← hcontent, (trimmed_trim (unlines t.2)).trim_eq]
    rw [tagLines, List.cons_append, sections_tag
      (tagLine?_written h.isName (h.trimmed l (hmem l (by simp)))), sections_append_plain hplain, hls,
      List.append_nil, hrest]
    exact ⟨rfl, by rw [List.map_cons, hsame]⟩

def allTagLines (ts : List (List Char × List (List Char))) : List (List Char) :=
  ts.flatMap fun t => tagLines t.1 (trimEmpty t.2)

theorem sections_allTagLines {ts : List (List Char × List (List Char))} (h : ∀ t ∈ ts, Cut t) :
    (sections (allTagLines ts)).1 = [] ∧
      (sections (allTagLines ts)).2.map tagOf = ts.map tagOf := by
  induction ts with
  | nil => exact ⟨rfl, rfl⟩
  | cons t ts ih =>
    obtain ⟨hbefore, htags⟩ := ih fun u hu => h u (List.mem_cons_of_mem t hu)
    obtain ⟨hbefore', htags'⟩ := sections_tagLines (h t (by simp)) hbefore
    rw [List.map_cons, ← htags]
    exact ⟨hbefore', htags'⟩

theorem mem_tagLines {t : List Char × List (List Char)} (h : Cut t) :
    ∀ l ∈ tagLines t.1 (trimEmpty t.2), CleanLine l ∧ Trimmed l := by
  have hsub {l : List Char} (hl : l ∈ trimEmpty t.2) : CleanLine l ∧ Trimmed l :=
    ⟨h.clean l ((trimEmpty_sublist t.2).subset hl), h.trimmed l ((trimEmpty_sublist t.2).subset hl)⟩
  have hat : ∀ c ∈ '@' :: t.1, isBlank c = false := List.forall_mem_cons.mpr ⟨rfl, h.isName.inked⟩
  cases hk : trimEmpty t.2 with
  | nil =>
    intro l hl
    obtain rfl := List.mem_singleton.mp hl
    exact ⟨CleanLine.of_inked hat, fun c hc => hat c (List.mem_of_mem_head? hc),
      fun c hc => hat c (List.mem_of_getLast? hc)⟩
  | cons l rest =>
    have hl := hsub (l := l) (by simp [hk])
    have hne : l ≠ [] := head_trimEmpty t.2 l (by simp [hk])
    have hsplit : '@' :: (t.1 ++ ' ' :: l) = '@' :: (t.1 ++ [' ']) ++ l := by simp
    refine List.forall_mem_cons.mpr ⟨⟨?_, ?_⟩, fun m hm => hsub (by simp [hk, hm])⟩
    · exact (CleanLine.of_inked hat).append hl.1.space
    · refine ⟨by simp [isBlank], ?_⟩
      rw [hsplit]
      exact last_append hl.2.last fun hn => absurd hn hne

theorem mem_allTagLines {ts : List (List Char × List (List Char))} (h : ∀ t ∈ ts, Cut t) :
    ∀ l ∈ allTagLines ts, CleanLine l ∧ Trimmed l := by
  intro l hl
  obtain ⟨t, ht, hl⟩ := List.mem_flatMap.mp hl
  exact mem_tagLines (h t ht) l hl

def spread : List (List (List Char)) → List (List Char)
  | [] => [[]]
  | [p] => p
  | p :: q :: ps => p ++ [] :: spread (q :: ps)

structure Settled (p : List (List Char)) : Prop where
  ne_nil : p ≠ []
  inked : ∀ l ∈ p, ¬AllBlank l
  cut : ∀ l ∈ p, trimEnd l = l

theorem settled_of_mem_paragraphs {ls : List (List Char)} {p : List (List Char)}
    (hp : p ∈ paragraphs ls) : Settled p := by
  obtain ⟨hne, hlines⟩ := of_mem_paragraphs hp
  refine ⟨hne, fun l hl => ?_, fun l hl => ?_⟩
  · obtain ⟨m, -, hinked, rfl⟩ := hlines l hl
    exact mt allBlank_trimEnd.mp hinked
  · obtain ⟨m, -, -, rfl⟩ := hlines l hl
    exact trimEnd_trimEnd m

theorem spread_ne_nil {ps : List (List (List Char))} (h : ∀ p ∈ ps, p ≠ []) : spread ps ≠ [] := by
  cases ps with
  | nil => simp [spread]
  | cons p ps =>
    cases ps with
    | nil => exact h p (by simp)
    | cons q ps => simp [spread]

theorem unlines_spread {ps : List (List (List Char))} (h : ∀ p ∈ ps, p ≠ []) :
    unlines (spread ps) = ['\n', '\n'].intercalate (ps.map unlines) := by
  induction ps with
  | nil => rfl
  | cons p ps ih =>
    have hps : ∀ q ∈ ps, q ≠ [] := fun q hq => h q (List.mem_cons_of_mem p hq)
    cases ps with
    | nil => simp [spread]
    | cons q ps =>
      have hi := ih hps
      rw [spread, unlines_append (h p (by simp)) (by simp),
        unlines_cons_of_ne_nil [] (spread_ne_nil hps), hi]
      simp [List.intercalate_cons_cons]

theorem splitParagraphs_settled {p : List (List Char)} (hinked : ∀ l ∈ p, ¬AllBlank l)
    (hcut : ∀ l ∈ p, trimEnd l = l) (ls : List (List Char)) :
    splitParagraphs (p ++ [] :: ls) = (p, paragraphs ls) := by
  induction p with
  | nil => exact splitParagraphs_blank allBlank_nil ls
  | cons l p ih =>
    rw [List.cons_append, splitParagraphs_inked (hinked l (by simp)), hcut l (by simp),
      ih (fun m hm => hinked m (List.mem_cons_of_mem l hm))
        (fun m hm => hcut m (List.mem_cons_of_mem l hm))]

theorem paragraphs_settled {p : List (List Char)} (h : Settled p) (ls : List (List Char)) :
    paragraphs (p ++ [] :: ls) = p :: paragraphs ls := by
  have hp : p.isEmpty = false := List.isEmpty_eq_false_iff.mpr h.ne_nil
  simp [paragraphs_eq, splitParagraphs_settled h.inked h.cut, hp]

theorem paragraphs_spread {ps : List (List (List Char))} (h : ∀ p ∈ ps, Settled p) :
    paragraphs (spread ps ++ [[]]) = ps := by
  induction ps with
  | nil => rfl
  | cons p ps ih =>
    have hi := ih fun q hq => h q (List.mem_cons_of_mem p hq)
    cases ps with
    | nil => exact paragraphs_settled (h p (by simp)) []
    | cons q ps => rw [spread, List.append_assoc, List.cons_append, paragraphs_settled (h p (by simp)), hi]

theorem mem_spread {ps : List (List (List Char))} {l : List Char} (hl : l ∈ spread ps) :
    l = [] ∨ ∃ p ∈ ps, l ∈ p := by
  induction ps with
  | nil => exact .inl (List.mem_singleton.mp hl)
  | cons p ps ih =>
    cases ps with
    | nil => exact .inr ⟨p, by simp, hl⟩
    | cons q ps =>
      rw [spread, List.mem_append, List.mem_cons] at hl
      rcases hl with hl | hl | hl
      · exact .inr ⟨p, by simp, hl⟩
      · exact .inl hl
      · rcases ih hl with hnil | ⟨r, hr, hlr⟩
        · exact .inl hnil
        · exact .inr ⟨r, List.mem_cons_of_mem p hr, hlr⟩

theorem mem_spread_of_mem {ps : List (List (List Char))} {p : List (List Char)} (hp : p ∈ ps)
    {l : List Char} (hl : l ∈ p) : l ∈ spread ps := by
  induction ps with
  | nil => simp at hp
  | cons q ps ih =>
    cases ps with
    | nil =>
      obtain rfl := List.mem_singleton.mp hp
      exact hl
    | cons r ps =>
      rw [spread, List.mem_append]
      rcases List.mem_cons.mp hp with rfl | hp
      · exact .inl hl
      · exact .inr (List.mem_cons_of_mem _ (ih hp))

theorem last_spread {ps : List (List (List Char))} (h : ∀ p ∈ ps, Settled p) (hne : ps ≠ []) :
    ∀ l ∈ (spread ps).getLast?, l ≠ [] := by
  induction ps with
  | nil => exact absurd rfl hne
  | cons p ps ih =>
    have hi := ih fun q hq => h q (List.mem_cons_of_mem p hq)
    cases ps with
    | nil =>
      intro l hl hnil
      exact (h p (by simp)).inked l (List.mem_of_getLast? hl) (hnil ▸ allBlank_nil)
    | cons q ps =>
      have hspread : spread (q :: ps) ≠ [] :=
        spread_ne_nil fun r hr => (h r (List.mem_cons_of_mem p hr)).ne_nil
      have hsplit : p ++ [] :: spread (q :: ps) = (p ++ [[]]) ++ spread (q :: ps) := by simp
      rw [spread, hsplit, List.getLast?_append_of_ne_nil _ hspread]
      exact hi (by simp)

theorem map_spread {g : List Char → List Char} (hg : g [] = []) (ps : List (List (List Char))) :
    (spread ps).map g = spread (ps.map (List.map g)) := by
  induction ps with
  | nil => simp [spread, hg]
  | cons p ps ih =>
    cases ps with
    | nil => rfl
    | cons q ps =>
      rw [spread, List.map_append, List.map_cons, hg, ih]
      rfl

theorem trimmed_intercalate_space {ws : List (List Char)} (h : ∀ w ∈ ws, Trimmed w ∧ w ≠ [])
    (hne : ws ≠ []) : Trimmed ([' '].intercalate ws) ∧ [' '].intercalate ws ≠ [] := by
  induction ws with
  | nil => exact absurd rfl hne
  | cons w ws ih =>
    obtain ⟨hw, hw'⟩ := h w (by simp)
    cases ws with
    | nil => simpa using ⟨hw, hw'⟩
    | cons v ws =>
      obtain ⟨hrest, hrest'⟩ := ih (fun u hu => h u (List.mem_cons_of_mem w hu)) (by simp)
      rw [List.intercalate_cons_cons]
      refine ⟨⟨?_, last_append hrest.last fun hn => absurd hn hrest'⟩, by simp⟩
      obtain ⟨c, r, rfl⟩ := List.exists_cons_of_ne_nil hw'
      simpa using hw.head c rfl

theorem cleanLine_intercalate_space {ws : List (List Char)} (h : ∀ w ∈ ws, CleanLine w) :
    CleanLine ([' '].intercalate ws) := by
  induction ws with
  | nil => exact CleanLine.nil
  | cons w ws ih =>
    have hi := ih fun v hv => h v (List.mem_cons_of_mem w hv)
    cases ws with
    | nil => simpa using h w (by simp)
    | cons v ws =>
      rw [List.intercalate_cons_cons, List.append_assoc, List.singleton_append]
      exact (h w (by simp)).append hi.space

/-- Only the first word of a line tells whether it starts a tag. -/
theorem plainLine_append {l : List Char} (hl : PlainLine l) (hinked : ¬AllBlank l) {s : List Char}
    (hs : ∀ c ∈ s.head?, isBlank c = true) : PlainLine (l ++ s) := by
  rw [plainLine_iff] at hl ⊢
  rw [words_append hs]
  cases hw : words l with
  | nil => exact absurd (words_eq_nil_iff.mp hw) hinked
  | cons w ws =>
    rw [hw] at hl
    simpa [tagWords?] using hl

structure IsParagraph (p : List (List Char)) : Prop extends Settled p where
  clean : ∀ l ∈ p, CleanLine l
  plain : ∀ l ∈ p, PlainLine l

theorem isParagraph_of_mem_paragraphs {ls : List (List Char)} (h : ∀ l ∈ ls, CleanLine l)
    {p : List (List Char)} (hp : p ∈ paragraphs (sections ls).1) : IsParagraph p := by
  refine ⟨settled_of_mem_paragraphs hp, ?_, ?_⟩ <;> intro l hl <;>
    obtain ⟨m, hm, -, rfl⟩ := (of_mem_paragraphs hp).2 l hl
  · exact (h m (mem_of_mem_sections hm)).sublist (trimEnd_sublist m)
  · rw [plainLine_iff_tagLine?, trim_trimEnd, ← plainLine_iff_tagLine?]
    exact plain_of_mem_sections h m hm

/-- A margin can be cut from a paragraph. -/
theorem IsParagraph.drop {p : List (List Char)} (h : IsParagraph p) {m : Nat}
    (hm : ∀ l ∈ p, AllBlank (l.take m)) : IsParagraph (p.map (·.drop m)) := by
  refine ⟨⟨by simpa using h.ne_nil, ?_, ?_⟩, ?_, ?_⟩ <;> intro l hl <;>
    obtain ⟨k, hk, rfl⟩ := List.mem_map.mp hl
  · exact mt (allBlank_of_trim_eq (trim_drop (hm k hk))).mp (h.inked k hk)
  · rw [trimEnd_drop, h.cut k hk]
  · exact (h.clean k hk).sublist (List.drop_sublist m k)
  · rw [plainLine_iff_tagLine?, trim_drop (hm k hk), ← plainLine_iff_tagLine?]
    exact h.plain k hk

structure IsSummary (s : List Char) : Prop where
  trimmed : Trimmed s
  inked : ¬AllBlank s
  clean : CleanLine s
  plain : PlainLine s

theorem IsParagraph.isSummary {p : List (List Char)} (h : IsParagraph p) :
    IsSummary ([' '].intercalate (p.map trim)) := by
  have hwords : ∀ w ∈ p.map trim, Trimmed w ∧ w ≠ [] := by
    intro w hw
    obtain ⟨l, hl, rfl⟩ := List.mem_map.mp hw
    exact ⟨trimmed_trim l, mt trim_eq_nil.mp (h.inked l hl)⟩
  have hclean : ∀ w ∈ p.map trim, CleanLine w := by
    intro w hw
    obtain ⟨l, hl, rfl⟩ := List.mem_map.mp hw
    exact (h.clean l hl).sublist (trim_sublist l)
  obtain ⟨htrimmed, hne⟩ := trimmed_intercalate_space hwords (by simpa using h.ne_nil)
  refine ⟨htrimmed, fun hb => hne (trimmed_of_inked_eq htrimmed hb),
    cleanLine_intercalate_space hclean, ?_⟩
  obtain ⟨l, ls, rfl⟩ := List.exists_cons_of_ne_nil h.ne_nil
  have hl : PlainLine (trim l) := (h.plain l (by simp)).trim
  cases ls with
  | nil => simpa using hl
  | cons m ms =>
    have hinked : ¬AllBlank (trim l) :=
      mt (allBlank_of_trim_eq (trimmed_trim l).trim_eq).mp (h.inked l (by simp))
    rw [List.map_cons, List.map_cons, List.intercalate_cons_cons, List.append_assoc]
    exact plainLine_append hl hinked (by simp [isBlank])

end Comment
end RouteDoc
