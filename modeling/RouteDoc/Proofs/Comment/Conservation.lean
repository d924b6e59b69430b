import Mathlib.Data.List.Forall2
import RouteDoc.Proofs.Comment.Sections
import RouteDoc.Proofs.Text.Lines
/-! Reading a comment keeps all of its ink: what stands before the first tag line is summary and
details, and what stands on a tag line and after it is that tag's content. Cleaning the text and
grouping its lines cut blanks only, so the ink can be counted on the page of the text, which no
cleaning changes. -/
namespace RouteDoc.Comment
open Text

/-- A tag line with its name, what follows the name on it, and the lines up to the next tag. -/
structure TagBlock where
  line : List Char
  name : List Char
  rest : List Char
  following : List (List Char)
  isTagLine : IsTagLine line name rest
  plain : ∀ l ∈ following, PlainLine l

namespace TagBlock

def lines (b : TagBlock) : List (List Char) := b.line :: b.following

/-- A tag carries a block when it has the block's name and ink, no blanks at the ends of its
content, and no line in it after the first that starts a tag. -/
structure CarriedBy (b : TagBlock) (t : Tag) : Prop where
  name : t.name = String.ofList b.name
  content : ink t.content.toList = ink b.rest ++ ink b.following.flatten
  trimmed : Trimmed t.content.toList
  plain : ∀ l ∈ (Text.lines t.content.toList).tail, PlainLine l

end TagBlock

def tally : List (List (List Char)) → List Char × List (List Char × List Char)
  | [] => ([], [])
  | ws :: ls =>
    let (before, tags) := tally ls
    match tagWords? ws with
    | some (name, rest) => ([], (name, rest.flatten ++ before) :: tags)
    | none => (ws.flatten ++ before, tags)

theorem tally_consLine? (ws : List (List Char)) (ls : List (List (List Char))) :
    tally (consLine? ws ls) = tally (ws :: ls) := by
  cases ws <;> rfl

theorem ink_flatten_map_trim (ls : List (List Char)) :
    ink (ls.map trim).flatten = ink ls.flatten := by
  induction ls with
  | nil => rfl
  | cons l ls ih => simp only [List.map_cons, List.flatten_cons, ink_append, ink_trim, ih]

/-- The sections of lines hold the ink that their page counts. -/
theorem tally_sections (ls : List (List Char)) :
    tally (wordsOfLines ls) =
      (ink (sections ls).1.flatten, (sections ls).2.map fun t => (t.1, ink t.2.flatten)) := by
  induction ls with
  | nil => rfl
  | cons l ls ih =>
    rw [wordsOfLines, tally_consLine?, tally, ih, tagWords?_words, sections]
    cases ht : tagLine? (trim l) with
    | none => simp [flatten_words]
    | some t => simp [flatten_words, ink_flatten_map_trim]

/-- Every text falls into lines before the first tag and blocks, and its page counts their ink. -/
theorem exists_blocks (ls : List (List Char)) :
    ∃ (before : List (List Char)) (blocks : List TagBlock),
      ls = before ++ blocks.flatMap TagBlock.lines ∧ (∀ l ∈ before, PlainLine l) ∧
      tally (wordsOfLines ls) =
        (ink before.flatten,
          blocks.map fun b => (b.name, ink b.rest ++ ink b.following.flatten)) := by
  induction ls with
  | nil => exact ⟨[], [], rfl, by simp, rfl⟩
  | cons l ls ih =>
    obtain ⟨before, blocks, hls, hplain, hink⟩ := ih
    rw [wordsOfLines, tally_consLine?, tally, hink]
    cases ht : tagLine? (trim l) with
    | none =>
      have hl : PlainLine l := plainLine_iff_tagLine?.mpr ht
      refine ⟨l :: before, blocks, by rw [hls]; rfl, List.forall_mem_cons.mpr ⟨hl, hplain⟩, ?_⟩
      simp [plainLine_iff.mp hl, flatten_words]
    | some t =>
      obtain ⟨rest, hl, -⟩ := isTagLine_of_tagLine? (t := t.2) ht
      refine ⟨[], ⟨l, t.1, rest, before, hl, hplain⟩ :: blocks, ?_, by simp, ?_⟩
      · rw [hls]; rfl
      · simp [hl.tagWords?, flatten_words]

theorem ink_paragraphs (ls : List (List Char)) :
    ink (paragraphs ls).flatten.flatten = ink ls.flatten := by
  rw [flatten_paragraphs]
  induction ls with
  | nil => rfl
  | cons l ls ih =>
    rw [List.flatten_cons, ink_append, ← ih]
    by_cases hl : AllBlank l
    · rw [splitParagraphs_blank hl, List.nil_append, hl.ink_eq, flatten_paragraphs, List.nil_append]
    · rw [splitParagraphs_inked hl]
      simp

theorem ink_flatten_map_unlines (ps : List (List (List Char))) :
    ink (ps.map unlines).flatten = ink ps.flatten.flatten := by
  induction ps with
  | nil => rfl
  | cons p ps ih =>
    have hp : ink (unlines p) = ink p.flatten := ink_intercalate (by simp [AllBlank, isBlank]) p
    simp [ih, hp]

theorem ink_description (ls : List (List Char)) :
    ink (ofLines ls).summary.toList ++ ink (ofLines ls).details.toList =
      ink (sections ls).1.flatten := by
  have hline : AllBlank [' '] := by simp [AllBlank, isBlank]
  have hgap : AllBlank ['\n', '\n'] := by simp [AllBlank, isBlank]
  rw [ofLines, String.toList_ofList, String.toList_ofList, ink_intercalate hline,
    ink_intercalate hgap, ink_flatten_map_trim, ink_flatten_map_unlines, ← ink_append,
    ← ink_paragraphs]
  cases paragraphs (sections ls).1 <;> simp

structure Clipping (ls : List (List Char)) : Prop where
  oneLine : ∀ l ∈ ls, OneLine l
  plain : ∀ l ∈ ls.tail, PlainLine l

theorem clipping_of_sections {ls : List (List Char)} (h : ∀ l ∈ ls, OneLine l) :
    (∀ l ∈ (sections ls).1, OneLine l ∧ PlainLine l) ∧ ∀ t ∈ (sections ls).2, Clipping t.2 := by
  induction ls with
  | nil => simp [sections]
  | cons l ls ih =>
    obtain ⟨hbefore, htags⟩ := ih fun m hm => h m (List.mem_cons_of_mem l hm)
    have hl : OneLine l := h l (by simp)
    rw [sections]
    cases ht : tagLine? (trim l) with
    | none =>
      exact ⟨List.forall_mem_cons.mpr ⟨⟨hl, plainLine_iff_tagLine?.mpr ht⟩, hbefore⟩, htags⟩
    | some t =>
      obtain ⟨rest, hline, htext⟩ := isTagLine_of_tagLine? (t := t.2) ht
      refine ⟨by simp, List.forall_mem_cons.mpr ⟨⟨?_, ?_⟩, htags⟩⟩
      · refine List.forall_mem_cons.mpr ⟨?_, ?_⟩
        · intro c hc
          apply hl.sublist (trim_sublist l)
          rw [hline.text]
          rw [htext] at hc
          exact List.mem_cons_of_mem _
            (List.mem_append_right _ ((List.dropWhile_sublist isBlank).subset hc))
        · intro m hm
          obtain ⟨k, hk, rfl⟩ := List.mem_map.mp hm
          exact (hbefore k hk).1.sublist (trim_sublist k)
      · intro m hm
        obtain ⟨k, hk, rfl⟩ := List.mem_map.mp hm
        exact (hbefore k hk).2.trim

/-- Trimming the joined lines of a tag brings up no tag line after the first line. -/
theorem Clipping.plain_content {ls : List (List Char)} (h : Clipping ls) :
    ∀ l ∈ (lines (trim (unlines ls))).tail, PlainLine l := by
  intro l hl
  rw [plainLine_iff]
  by_cases hw : words l = []
  · rw [hw]; rfl
  · by_cases hne : trim (unlines ls) = []
    · simp [hne, lines] at hl
    obtain ⟨m, ms, hlines, hpage⟩ := page_eq_cons (trimmed_trim (unlines ls)) hne
    rw [hlines, List.tail_cons] at hl
    have hmem : words l ∈ wordsOfLines ms := mem_wordsOfLines hl hw
    cases ls with
    | nil => simp [unlines, trim, trimStart, trimEnd] at hne
    | cons t fs =>
      rw [page_trim, page_unlines, List.flatMap_cons, page_of_oneLine (h.oneLine t (by simp))]
        at hpage
      have hfs : words l ∈ fs.flatMap page := by
        cases hwt : words t with
        | nil =>
          rw [hwt, consLine?_nil, List.nil_append] at hpage
          rw [hpage]
          exact List.mem_cons_of_mem _ hmem
        | cons w ws =>
          rw [hwt] at hpage
          rwa [← (List.cons.inj hpage).2] at hmem
      obtain ⟨f, hf, hlf⟩ := List.mem_flatMap.mp hfs
      rw [page_of_oneLine (h.oneLine f (List.mem_cons_of_mem t hf))] at hlf
      have heq : words l = words f := by
        cases hwf : words f with
        | nil => simp [hwf] at hlf
        | cons w ws => simpa [hwf, consLine?] using hlf
      rw [heq]
      exact plainLine_iff.mp (h.plain f hf)

theorem TagBlock.carriedBy_tagOf (b : TagBlock) {t : List Char × List (List Char)}
    (hname : t.1 = b.name) (hink : ink t.2.flatten = ink b.rest ++ ink b.following.flatten)
    (hclip : Clipping t.2) : b.CarriedBy (tagOf t) := by
  have hcontent : (tagOf t).content.toList = trim (unlines t.2) := String.toList_ofList
  refine ⟨congrArg String.ofList hname, ?_, ?_, ?_⟩
  · have hgap : AllBlank ['\n'] := by simp [AllBlank, isBlank]
    rw [hcontent, ink_trim, unlines, ink_intercalate hgap, hink]
  · rw [hcontent]
    exact trimmed_trim _
  · rw [hcontent]
    exact hclip.plain_content

theorem forall₂_carriedBy {blocks : List TagBlock} {tags : List (List Char × List (List Char))}
    (h : (tags.map fun t => (t.1, ink t.2.flatten)) =
      blocks.map fun b => (b.name, ink b.rest ++ ink b.following.flatten))
    (hclips : ∀ t ∈ tags, Clipping t.2) :
    List.Forall₂ TagBlock.CarriedBy blocks (tags.map tagOf) := by
  induction blocks generalizing tags with
  | nil =>
    obtain rfl := List.map_eq_nil_iff.mp h
    exact .nil
  | cons b blocks ih =>
    cases tags with
    | nil => simp at h
    | cons t tags =>
      obtain ⟨hhead, htail⟩ := List.cons.inj h
      obtain ⟨hname, hink⟩ := Prod.mk.inj hhead
      exact .cons (b.carriedBy_tagOf hname hink (hclips t (by simp)))
        (ih htail fun u hu => hclips u (List.mem_cons_of_mem t hu))

/-- Nothing that is written in a comment is lost, doubled, moved or given to a wrong tag: the lines
of the text fall into those before the first tag line and one block for each tag. -/
theorem parse_conserves (s : String) (h : ¬"/**".toList <+: trim s.toList) :
    ∃ (before : List (List Char)) (blocks : List TagBlock),
      lines s.toList = before ++ blocks.flatMap TagBlock.lines ∧
      (∀ l ∈ before, PlainLine l) ∧
      ink (parse s).summary.toList ++ ink (parse s).details.toList = ink before.flatten ∧
      List.Forall₂ TagBlock.CarriedBy blocks (parse s).tags := by
  obtain ⟨before, blocks, hlines, hplain, hink⟩ := exists_blocks (lines s.toList)
  refine ⟨before, blocks, hlines, hplain, ?_⟩
  have hclean : wordsOfLines (lines (dedent (body s.toList))) = wordsOfLines (lines s.toList) := by
    rw [← page_eq_wordsOfLines, page_dedent, body_of_plain h, page_trim, page_eq_wordsOfLines]
  have hclips : ∀ t ∈ (sections (lines (dedent (body s.toList)))).2, Clipping t.2 :=
    (clipping_of_sections fun _ => oneLine_of_mem_lines).2
  rw [parse]
  generalize lines (dedent (body s.toList)) = ls at hclean hclips
  rw [← hclean, tally_sections] at hink
  obtain ⟨hdescription, htags⟩ := Prod.mk.inj hink
  exact ⟨by rw [ink_description, hdescription], forall₂_carriedBy htags hclips⟩

def boundaries : String := "A  title\x0b\tmore\u2028 @note-1\x1fone\r\n  two @here"

theorem parse_conserves_boundaries :
    ¬"/**".toList <+: trim boundaries.toList ∧
      ∃ (before : List (List Char)) (blocks : List TagBlock),
        lines boundaries.toList = before ++ blocks.flatMap TagBlock.lines ∧
        (∀ l ∈ before, PlainLine l) ∧
        ink (parse boundaries).summary.toList ++ ink (parse boundaries).details.toList =
          ink before.flatten ∧
        List.Forall₂ TagBlock.CarriedBy blocks (parse boundaries).tags ∧
        (parse boundaries).tags.map (·.name) = ["note-1"] :=
  have hplain : ¬"/**".toList <+: trim boundaries.toList := by decide
  have ⟨before, blocks, hlines, hbefore, hink, htags⟩ := parse_conserves boundaries hplain
  ⟨hplain, before, blocks, hlines, hbefore, hink, htags, by decide +kernel⟩

end RouteDoc.Comment
