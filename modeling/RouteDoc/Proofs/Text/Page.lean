import RouteDoc.Proofs.Text.Words
import RouteDoc.Text.Margin
/-! The page of a text: the words of each of its lines, empty lines left out. Tab expansion, margins
and blank lines at the ends do not change it. A page is read character by character from the end, so
that texts which read alike after a place read alike whatever stands before it. -/
namespace RouteDoc.Text

/-- What has been read of a text: the word that it starts with, the other words of its first line,
and the words of the lines after. -/
structure Page where
  word : List Char
  others : List (List Char)
  rest : List (List (List Char))

namespace Page

def line (p : Page) : List (List Char) := consWord p.word p.others

def all (p : Page) : List (List (List Char)) := consLine? p.line p.rest

def read (c : Char) (p : Page) : Page :=
  if isLineEnd c then ⟨[], [], p.all⟩
  else if isBlank c then ⟨[], p.line, p.rest⟩
  else { p with word := c :: p.word }

theorem read_lineEnd {c : Char} (hc : isLineEnd c = true) (p : Page) :
    p.read c = ⟨[], [], p.all⟩ := by simp [read, hc]

def ofText (s : List Char) : Page := s.foldr read ⟨[], [], []⟩

@[simp] theorem ofText_cons (c : Char) (s : List Char) : ofText (c :: s) = (ofText s).read c := rfl

theorem ofText_append (a s : List Char) : ofText (a ++ s) = a.foldr read (ofText s) :=
  List.foldr_append

theorem all_read_blank {c : Char} (hc : isBlank c = true) (p : Page) : (p.read c).all = p.all := by
  cases hl : isLineEnd c <;> simp [read, hc, hl, all, line]

theorem all_read_blanks {a : List Char} (ha : AllBlank a) (p : Page) :
    (a.foldr read p).all = p.all := by
  induction a with
  | nil => rfl
  | cons c r ih =>
    rw [List.foldr_cons, all_read_blank (ha c (by simp)), ih (allBlank_cons.mp ha).2]

theorem read_read_blank {b c : Char} (hb : isBlank b = true) (hb' : isLineEnd b = false)
    (hc : isBlank c = true) (hc' : isLineEnd c = false) (p : Page) :
    (p.read c).read b = p.read b := by
  simp [read, hb, hb', hc, hc', line]

theorem read_blank_eq {b c : Char} (hb : isBlank b = true) (hb' : isLineEnd b = false)
    (hc : isBlank c = true) (hc' : isLineEnd c = false) (p : Page) : p.read b = p.read c := by
  simp [read, hb, hb', hc, hc']

end Page

def page (s : List Char) : List (List (List Char)) := (Page.ofText s).all

@[simp] theorem page_nil : page [] = [] := rfl

theorem page_blanks_append {a : List Char} (ha : AllBlank a) (s : List Char) :
    page (a ++ s) = page s := by
  rw [page, Page.ofText_append, Page.all_read_blanks ha, page]

theorem AllBlank.ofText_eq {b : List Char} (hb : AllBlank b) : Page.ofText b = ⟨[], [], []⟩ := by
  induction b with
  | nil => rfl
  | cons c r ih =>
    rw [Page.ofText_cons, ih (allBlank_cons.mp hb).2]
    simp [Page.read, hb c (by simp), Page.all, Page.line]

theorem page_append_blanks {b : List Char} (hb : AllBlank b) (s : List Char) :
    page (s ++ b) = page s := by
  rw [page, Page.ofText_append, hb.ofText_eq]
  rfl

theorem page_trim (s : List Char) : page (trim s) = page s := by
  obtain ⟨a, b, ha, hb, hs⟩ := exists_trim s
  conv_rhs => rw [hs, page_append_blanks hb, page_blanks_append ha]

theorem page_trimStart (s : List Char) : page (trimStart s) = page s := by
  obtain ⟨a, ha, hs⟩ := exists_trimStart s
  conv_rhs => rw [hs, page_blanks_append ha]

theorem Page.foldr_read_rest (a : List Char) (ls : List (List (List Char))) :
    a.foldr read ⟨[], [], ls⟩ =
      ⟨(ofText a).word, (ofText a).others, (ofText a).rest ++ ls⟩ := by
  induction a with
  | nil => rfl
  | cons c r ih =>
    rw [List.foldr_cons, ih, ofText_cons]
    cases hl : isLineEnd c with
    | true => simp [read, hl, all, line, consLine?_append]
    | false => cases hb : isBlank c <;> simp [read, hl, hb, line]

theorem page_append_lineEnd (a : List Char) {e : Char} (he : isLineEnd e = true) (s : List Char) :
    page (a ++ e :: s) = page a ++ page s := by
  rw [page, Page.ofText_append, Page.ofText_cons, Page.read_lineEnd he, Page.foldr_read_rest]
  exact consLine?_append _ _ _

theorem page_unlines (ls : List (List Char)) : page (unlines ls) = ls.flatMap page := by
  induction ls with
  | nil => rfl
  | cons l ls ih =>
    cases ls with
    | nil => simp [unlines]
    | cons m ms =>
      rw [unlines, List.intercalate_cons_cons, List.append_assoc, List.singleton_append,
        page_append_lineEnd l rfl, ← unlines, ih]
      rfl

def Page.ofLines : List (List Char) → Page
  | [] => ⟨[], [], []⟩
  | l :: ls => ⟨(splitWords l).1, (splitWords l).2, wordsOfLines ls⟩

theorem Page.all_ofLines (ls : List (List Char)) : (ofLines ls).all = wordsOfLines ls := by
  cases ls <;> rfl

theorem Page.read_ofLines {c : Char} (hc : isLineEnd c = false) (ls : List (List Char)) :
    (ofLines ls).read c = ofLines (consLine c ls) := by
  cases hb : isBlank c <;> cases ls <;>
    simp [read, ofLines, consLine, hc, hb, line, splitWords, wordsOfLines]

theorem Page.ofText_eq_ofLines (s : List Char) : ofText s = ofLines (lines s) := by
  induction s using lines.induct with
  | case1 => rfl
  | case2 r ih =>
    rw [ofText_cons, ofText_cons, ih, lines, read_lineEnd rfl, read_lineEnd rfl, all_ofLines]
    rfl
  | case3 c r hcr hc ih =>
    rw [ofText_cons, ih, lines.eq_3 c r hcr, if_pos hc, read_lineEnd hc, all_ofLines]
    rfl
  | case4 c r hcr hc ih =>
    rw [ofText_cons, ih, lines.eq_3 c r hcr, if_neg hc, read_ofLines (by simpa using hc)]

/-- The page of a text can be read off its lines. -/
theorem page_eq_wordsOfLines (s : List Char) : page s = wordsOfLines (lines s) := by
  rw [page, Page.ofText_eq_ofLines, Page.all_ofLines]

theorem ofText_spaces {n : Nat} (hn : 0 < n) (p : Page) :
    (List.replicate n ' ').foldr Page.read p = p.read ' ' := by
  induction n with
  | zero => exact absurd hn (Nat.lt_irrefl 0)
  | succ n ih =>
    cases n with
    | zero => rfl
    | succ n =>
      rw [List.replicate_succ, List.foldr_cons, ih (Nat.succ_pos n),
        Page.read_read_blank rfl rfl rfl rfl]

theorem Page.ofText_expandTabs (column : Nat) (s : List Char) :
    ofText (expandTabs column s) = ofText s := by
  induction s generalizing column with
  | nil => rfl
  | cons c r ih =>
    rw [expandTabs]
    split
    case isTrue h =>
      have hn : 0 < 8 - column % 8 := by omega
      rw [ofText_append, ofText_spaces hn, ih, h, ofText_cons]
      exact read_blank_eq rfl rfl rfl rfl _
    case isFalse => rw [ofText_cons, ofText_cons, ih]

theorem page_expandTabs (column : Nat) (s : List Char) : page (expandTabs column s) = page s := by
  rw [page, Page.ofText_expandTabs, page]

theorem indent_of_allBlank_take {l : List Char} {n : Nat} (h : n ≤ indent l) :
    AllBlank (l.take n) := by
  intro c hc
  have hp : l.take n <+: l.takeWhile isBlank :=
    List.prefix_of_prefix_length_le (List.take_prefix n l) (List.takeWhile_prefix isBlank)
      (Nat.le_trans (List.length_take_le n l) h)
  exact List.mem_takeWhile_imp (hp.subset hc)

theorem allBlank_take_margin {ls : List (List Char)} {l : List Char} (hl : l ∈ ls) :
    AllBlank (l.take (margin ls)) := by
  by_cases hb : AllBlank l
  · exact fun c hc => hb c (List.mem_of_mem_take hc)
  · apply indent_of_allBlank_take
    have hmem : indent l ∈ (ls.filter fun l => !l.all isBlank).map indent := by
      refine List.mem_map_of_mem (List.mem_filter.mpr ⟨hl, ?_⟩)
      simpa using mt all_isBlank_iff.mp hb
    rw [margin]
    cases hm : ((ls.filter fun l => !l.all isBlank).map indent).min? with
    | none => exact Nat.zero_le _
    | some m => exact (List.min?_eq_some_iff.mp hm).2 _ hmem

theorem page_drop_margin {ls : List (List Char)} {l : List Char} (hl : l ∈ ls) :
    page (l.drop (margin ls)) = page l := by
  conv_rhs => rw [← List.take_append_drop (margin ls) l,
    page_blanks_append (allBlank_take_margin hl)]

theorem flatMap_page_cutMargin (ls : List (List Char)) :
    (cutMargin ls).flatMap page = ls.flatMap page := by
  cases ls with
  | nil => rfl
  | cons l ls =>
    rw [cutMargin, List.flatMap_cons, page_trimStart, List.flatMap_cons, List.flatMap_map]
    congr 1
    exact List.flatMap_congr fun m hm => page_drop_margin hm

theorem flatMap_page_dropEmpty (ls : List (List Char)) :
    (ls.dropWhile List.isEmpty).flatMap page = ls.flatMap page := by
  induction ls with
  | nil => rfl
  | cons l ls ih => cases l <;> simp [ih]

theorem flatMap_page_dropEmpty_end (ls : List (List Char)) :
    (ls.rdropWhile List.isEmpty).flatMap page = ls.flatMap page := by
  induction ls using List.reverseRecOn with
  | nil => rfl
  | append_singleton ls l ih => cases l <;> simp [ih]

theorem page_dedent (s : List Char) : page (dedent s) = page s := by
  rw [dedent, page_unlines, trimEmpty, ← List.rdropWhile, flatMap_page_dropEmpty_end,
    flatMap_page_dropEmpty, flatMap_page_cutMargin, ← page_unlines, unlines,
    List.intercalate_splitOn, page_expandTabs]

end RouteDoc.Text
