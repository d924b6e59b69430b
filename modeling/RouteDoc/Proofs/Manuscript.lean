import RouteDoc.Proofs.Comment.Sections
import RouteDoc.Proofs.Parameter.Description
import RouteDoc.Proofs.Parameter.TagLine
import RouteDoc.Proofs.Text.Margin
/-! Comments as their authors write them: a title and, in any order, the group, the mark of
authenticated routes and the parameters. Reading such a comment gives back what was written. -/
namespace RouteDoc
open Text

structure Phrase where
  chars : List Char
  trimmed : Trimmed chars
  clean : CleanLine chars

/-- A parameter to be documented. The last three fields keep flag, description and example apart. -/
structure ParamNote where
  kind : ParamKind
  name : List Char
  type : ParamType
  required : Bool
  description : Phrase
  inline : Option Phrase
  name_ne_nil : name ≠ []
  name_inked : ∀ c ∈ name, isBlank c = false
  inline_ne_nil : ∀ e ∈ inline, e.chars ≠ []
  unflagged : required = false → (words description.chars).head? ≠ some Tag.requiredWord
  unmarked : inline = none → ¬Description.HasMarker description.chars
  inline_unmarked : ∀ e ∈ inline, ¬Description.HasMarker e.chars

namespace ParamNote

def flagText (p : ParamNote) : List Char := if p.required then ' ' :: Tag.requiredWord else []

def descriptionText (p : ParamNote) : List Char :=
  if p.description.chars = [] then [] else ' ' :: p.description.chars

def exampleText (p : ParamNote) : List Char :=
  match p.inline with
  | none => []
  | some e => ' ' :: Description.marker ++ ' ' :: e.chars

def remark (p : ParamNote) : List Char := p.descriptionText ++ p.exampleText

def content (p : ParamNote) : List Char :=
  p.name ++ ' ' :: p.type.name.toList ++ (p.flagText ++ p.remark)

def draft (p : ParamNote) : Draft where
  name := String.ofList p.name
  type := p.type.name
  description := String.ofList p.description.chars
  required := p.required
  sample := match p.inline with
    | none => .wanted p.type
    | some e => .given (p.type.cast (String.ofList e.chars))

end ParamNote

inductive Note where
  | group (label : Phrase)
  | authenticated
  | param (p : ParamNote)

namespace Note

def bare (name : String) : List Char := '@' :: name.toList

def written (name : String) (text : List Char) : List Char := '@' :: (name.toList ++ ' ' :: text)

def tag : Note → Tag
  | group label => ⟨"group", String.ofList label.chars⟩
  | authenticated => ⟨"authenticated", ""⟩
  | param p => ⟨p.kind.tagName, String.ofList p.content⟩

def line : Note → List Char
  | group label => written "group" label.chars
  | authenticated => bare "authenticated"
  | param p => written p.kind.tagName p.content

def param? : Note → Option ParamNote
  | param p => some p
  | _ => none

end Note

structure Manuscript where
  title : Phrase
  label : Phrase
  authenticated : Bool
  params : List ParamNote
  title_ne_nil : title.chars ≠ []
  title_plain : Comment.PlainLine title.chars
  title_no_block : ¬"/**".toList <+: title.chars
  distinct : ∀ kind, ((params.filter (·.kind = kind)).map (·.name)).Nodup

namespace Manuscript

def notes (m : Manuscript) : List Note :=
  .group m.label :: ((if m.authenticated then [.authenticated] else []) ++ m.params.map .param)

/-- The comment with its notes in the given order: the title, an empty line, a line for each note.
-/
def text (m : Manuscript) (notes : List Note) : String :=
  String.ofList (unlines (m.title.chars :: [] :: notes.map Note.line))

end Manuscript

theorem ParamType.name_inked (t : ParamType) : ∀ c ∈ t.name.toList, isBlank c = false := by
  cases t <;> exact inked_of_all rfl

theorem ParamType.name_ne_nil (t : ParamType) : t.name.toList ≠ [] := by
  cases t <;> decide

namespace ParamNote

theorem content_clean (p : ParamNote) : CleanLine p.content := by
  have hflag : CleanLine p.flagText := by
    rw [flagText]
    split
    · exact (CleanLine.of_inked Tag.requiredWord_inked).space
    · exact CleanLine.nil
  have hdescription : CleanLine p.descriptionText := by
    rw [descriptionText]
    split
    · exact CleanLine.nil
    · exact p.description.clean.space
  have hexample : CleanLine p.exampleText := by
    rw [exampleText]
    split
    · exact CleanLine.nil
    · next e _ =>
      have hmarker : CleanLine Description.marker := CleanLine.of_inked (inked_of_all rfl)
      exact hmarker.space.append e.clean.space
  have htype : CleanLine p.type.name.toList := CleanLine.of_inked p.type.name_inked
  exact ((CleanLine.of_inked p.name_inked).append htype.space).append
    (hflag.append (hdescription.append hexample))

theorem descriptionText_head (p : ParamNote) :
    ∀ c ∈ p.descriptionText.head?, isBlank c = true := by
  rw [descriptionText]
  split
  · simp
  · simp [isBlank]

theorem exampleText_head (p : ParamNote) : ∀ c ∈ p.exampleText.head?, isBlank c = true := by
  rw [exampleText]
  split <;> simp [isBlank]

theorem remark_head (p : ParamNote) : ∀ c ∈ p.remark.head?, isBlank c = true :=
  head_append p.descriptionText_head p.exampleText_head

theorem exampleText_last (p : ParamNote) : ∀ c ∈ p.exampleText.getLast?, isBlank c = false := by
  rw [exampleText]
  split
  · simp
  · next e he =>
    have hsplit : ' ' :: Description.marker ++ ' ' :: e.chars =
        (' ' :: Description.marker ++ [' ']) ++ e.chars := by simp
    rw [hsplit]
    exact last_append e.trimmed.last fun h => absurd h (p.inline_ne_nil e he)

theorem descriptionText_last (p : ParamNote) :
    ∀ c ∈ p.descriptionText.getLast?, isBlank c = false := by
  rw [descriptionText]
  split
  · simp
  · next hne =>
    exact last_append (s := [' ']) p.description.trimmed.last fun h => absurd h hne

theorem remark_last (p : ParamNote) : ∀ c ∈ p.remark.getLast?, isBlank c = false :=
  last_append p.exampleText_last fun _ => p.descriptionText_last

theorem flagText_last (p : ParamNote) : ∀ c ∈ p.flagText.getLast?, isBlank c = false := by
  rw [flagText]
  split
  · exact last_append (s := [' ']) Tag.requiredWord_trimmed.last fun h => absurd h (by decide)
  · simp

theorem content_trimmed (p : ParamNote) : Trimmed p.content := by
  refine ⟨?_, last_append (last_append p.remark_last fun _ => p.flagText_last) fun _ => ?_⟩
  · obtain ⟨d, r, hd⟩ := List.exists_cons_of_ne_nil p.name_ne_nil
    have hink : isBlank d = false := p.name_inked d (by simp [hd])
    simpa [content, hd] using hink
  · have hsplit : p.name ++ ' ' :: p.type.name.toList =
        (p.name ++ [' ']) ++ p.type.name.toList := by simp
    rw [hsplit]
    exact last_append (fun c hc => p.type.name_inked c (List.mem_of_getLast? hc))
      fun h => absurd h p.type.name_ne_nil

theorem trim_space_cons {s : List Char} (hs : Trimmed s) : trim (' ' :: s) = s := by
  simpa using trim_append (a := [' ']) (b := []) (by simp [AllBlank, isBlank])
    (by simp [AllBlank]) hs

theorem trim_descriptionText (p : ParamNote) : trim p.descriptionText = p.description.chars := by
  rw [descriptionText]
  split
  · next h => rw [h]; rfl
  · exact trim_space_cons p.description.trimmed

theorem split_remark (p : ParamNote) :
    Description.split (trim p.remark) = (p.description.chars, p.inline.map (·.chars)) := by
  cases hi : p.inline with
  | none =>
    rw [remark, exampleText, hi, List.append_nil, trim_descriptionText,
      Description.split_of_unmarked (p.unmarked hi), Option.map_none]
  | some e =>
    have he : e.chars ≠ [] := p.inline_ne_nil e hi
    have hsplit {a : List Char} (ha : Description.freshAfter true a = true) :=
      Description.split_of_marked ha e.trimmed he (p.inline_unmarked e hi)
    have htrim {a s : List Char} (hs : p.remark = ' ' :: s) (ha : s = a ++ ' ' :: e.chars)
        (hhead : ∀ c ∈ s.head?, isBlank c = false) : trim p.remark = s := by
      rw [hs]
      refine trim_space_cons ⟨hhead, ?_⟩
      have hlast : s = a ++ [' '] ++ e.chars := by simp [ha]
      rw [hlast]
      exact last_append e.trimmed.last fun h => absurd h he
    by_cases hd : p.description.chars = []
    · have hs : p.remark = ' ' :: ([] ++ Description.marker ++ ' ' :: e.chars) := by
        simp [remark, descriptionText, exampleText, hi, hd]
      rw [htrim hs rfl (by simp [Description.marker_eq, isBlank]), hsplit rfl, hd]
      rfl
    · obtain ⟨c, r, hcr⟩ := List.exists_cons_of_ne_nil hd
      have hc : isBlank c = false := p.description.trimmed.head c (by simp [hcr])
      have hs : p.remark = ' ' :: (p.description.chars ++ [' '] ++ Description.marker ++
          ' ' :: e.chars) := by
        simp [remark, descriptionText, exampleText, hi, hd]
      have hfresh : Description.freshAfter true (p.description.chars ++ [' ']) = true := by
        simp [Description.freshAfter, isBlank]
      rw [htrim hs rfl (by simp [hcr, hc]), hsplit hfresh,
        trim_append_blanks (by simp [AllBlank, isBlank]), p.description.trimmed.trim_eq]
      rfl

theorem words_remark_head (p : ParamNote) (h : p.required = false) :
    (words p.remark).head? ≠ some Tag.requiredWord := by
  rw [remark, words_append p.exampleText_head, descriptionText]
  split
  case isTrue =>
    rw [exampleText]
    cases p.inline with
    | none => simp
    | some e =>
      have hink : ∀ c ∈ Description.marker, isBlank c = false := inked_of_all rfl
      have hw : words (' ' :: (Description.marker ++ ' ' :: e.chars)) =
          Description.marker :: words (' ' :: e.chars) := by
        rw [words_blank rfl, words_word hink (by decide) (by simp [isBlank])]
      have hne : Description.marker ≠ Tag.requiredWord := by decide
      simpa [hw] using hne
  case isFalse hne =>
    have hwords : words p.description.chars ≠ [] := by
      intro hw
      have hblank := trimStart_eq_nil.mpr (words_eq_nil_iff.mp hw)
      rw [p.description.trimmed.trimStart_eq] at hblank
      exact hne hblank
    rw [words_blank rfl, List.head?_append_of_ne_nil _ hwords]
    exact p.unflagged h

theorem splitFlag_content (p : ParamNote) (passed : List Char) :
    Tag.splitFlag ⟨passed, p.flagText ++ p.remark⟩ = (p.required, trim p.remark) := by
  rw [flagText]
  split
  case isTrue h =>
    rw [h, Tag.splitFlag_of_word (a := [' ']) (w := Tag.requiredWord) (t := p.remark) rfl
      (by simp [AllBlank, isBlank]) Tag.requiredWord_inked (by decide) p.remark_head, if_pos rfl]
  case isFalse h =>
    have hoff : p.required = false := by simpa using h
    rw [hoff, List.nil_append]
    exact Tag.splitFlag_of_unflagged (p.words_remark_head hoff)

theorem ofDeclared_name (t : ParamType) : ParamType.ofDeclared t.name = t := by
  cases t <;> decide

/-- Name, type, flag, description and example are read back as they were written. -/
theorem draft?_content (p : ParamNote) (tagName : String) :
    Tag.draft? ⟨tagName, String.ofList p.content⟩ = some p.draft := by
  have hfields : Tag.fields? p.content =
      some (p.name, p.type.name.toList, p.required, trim p.remark) := by
    have htail : ∀ c ∈ (p.flagText ++ p.remark).head?, isBlank c = true := by
      refine head_append ?_ p.remark_head
      rw [flagText]
      split <;> simp [isBlank]
    have hcontent : trim p.content =
        p.name ++ [' '] ++ p.type.name.toList ++ (p.flagText ++ p.remark) := by
      rw [p.content_trimmed.trim_eq, content]
      simp
    rw [Tag.fields?_of_words hcontent p.name_inked p.name_ne_nil (by simp [AllBlank, isBlank])
      (by simp) p.type.name_inked p.type.name_ne_nil htail, splitFlag_content]
  rw [Tag.draft?, String.toList_ofList, hfields, Option.map_some]
  simp only [String.ofList_toList, ofDeclared_name, split_remark, draft]
  cases p.inline <;> rfl

end ParamNote

theorem isName_group : Comment.IsName "group".toList :=
  ⟨'g', "roup".toList, rfl, by decide, List.all_eq_true.mp rfl⟩

theorem isName_authenticated : Comment.IsName "authenticated".toList :=
  ⟨'a', "uthenticated".toList, rfl, by decide, List.all_eq_true.mp rfl⟩

theorem isName_tagName (kind : ParamKind) : Comment.IsName kind.tagName.toList := by
  cases kind with
  | path => exact ⟨'p', "athParam".toList, rfl, by decide, List.all_eq_true.mp rfl⟩
  | query => exact ⟨'q', "ueryParam".toList, rfl, by decide, List.all_eq_true.mp rfl⟩
  | body => exact ⟨'b', "odyParam".toList, rfl, by decide, List.all_eq_true.mp rfl⟩

namespace Note

theorem content_trimmed (n : Note) : Trimmed n.tag.content.toList := by
  cases n with
  | group label =>
    rw [tag, String.toList_ofList (l := label.chars)]
    exact label.trimmed
  | authenticated => exact trimmed_nil
  | param p =>
    rw [tag, String.toList_ofList (l := p.content)]
    exact p.content_trimmed

theorem tagLine?_line (n : Note) :
    Comment.tagLine? (trim n.line) = some (n.tag.name.toList, n.tag.content.toList) := by
  cases n with
  | group label =>
    rw [tag, String.toList_ofList (l := label.chars), line, written]
    exact Comment.tagLine?_written isName_group label.trimmed
  | authenticated => exact Comment.tagLine?_bare isName_authenticated
  | param p =>
    rw [tag, String.toList_ofList (l := p.content), line, written]
    exact Comment.tagLine?_written (isName_tagName p.kind) p.content_trimmed

theorem written_clean {name : String} (hname : Comment.IsName name.toList) {text : List Char}
    (htext : CleanLine text) : CleanLine (written name text) := by
  have hat : CleanLine ['@'] := CleanLine.of_inked (inked_of_all rfl)
  exact hat.append ((CleanLine.of_inked hname.inked).append htext.space)

theorem line_clean (n : Note) : CleanLine n.line := by
  cases n with
  | group label => exact written_clean isName_group label.clean
  | authenticated =>
    exact CleanLine.of_inked (List.forall_mem_cons.mpr ⟨rfl, isName_authenticated.inked⟩)
  | param p => exact written_clean (isName_tagName p.kind) p.content_clean

theorem line_head (n : Note) : ∃ r, n.line = '@' :: r := by
  cases n <;> exact ⟨_, rfl⟩

end Note

namespace Comment

/-- Lines that are written for notes, up to blanks around them, are read as the notes' tags. -/
theorem sections_notes {ls : List (List Char)} {notes : List Note}
    (h : ls.map trim = notes.map fun n => trim n.line) :
    sections ls = ([], notes.map fun n => (n.tag.name.toList, [n.tag.content.toList])) := by
  induction notes generalizing ls with
  | nil =>
    obtain rfl := List.map_eq_nil_iff.mp h
    rfl
  | cons n notes ih =>
    cases ls with
    | nil => simp at h
    | cons l ls =>
      obtain ⟨hl, hls⟩ := List.cons.inj h
      simp [sections, ih hls, hl, n.tagLine?_line]

theorem paragraphs_single {l : List Char} (hl : ¬AllBlank l) :
    paragraphs [l, []] = [[trimEnd l]] := by
  have hnil : splitParagraphs [[]] = ([], []) := rfl
  have hsplit : splitParagraphs [l, []] = ([trimEnd l], []) := by
    rw [splitParagraphs_inked hl, hnil]
  rw [paragraphs, hsplit]
  rfl

theorem tagOf_tag (n : Note) : tagOf (n.tag.name.toList, [n.tag.content.toList]) = n.tag := by
  have hunlines : unlines [n.tag.content.toList] = n.tag.content.toList := by simp [unlines]
  rw [tagOf, hunlines, n.content_trimmed.trim_eq, String.ofList_toList, String.ofList_toList]

/-- A title, an empty line and the lines of notes make the title the summary and leave no details.
-/
theorem ofLines_notes {title : List Char} (hplain : PlainLine title) (htitle : Trimmed title)
    (hne : title ≠ []) {ls : List (List Char)} {notes : List Note}
    (h : ls.map trim = notes.map fun n => trim n.line) :
    ofLines (title :: [] :: ls) =
      { summary := String.ofList title, details := "", tags := notes.map Note.tag } := by
  have hblank : ¬AllBlank title := by
    rw [← trimStart_eq_nil, htitle.trimStart_eq]
    exact hne
  have hempty : tagLine? (trim []) = none := rfl
  have hsections : sections (title :: [] :: ls) =
      ([title, []], notes.map fun n => (n.tag.name.toList, [n.tag.content.toList])) := by
    simp [sections, sections_notes h, hempty, plainLine_iff_tagLine?.mp hplain]
  have htags : (notes.map fun n => (n.tag.name.toList, [n.tag.content.toList])).map tagOf =
      notes.map Note.tag := by
    rw [List.map_map]
    exact List.map_congr_left fun n _ => tagOf_tag n
  simp only [ofLines, hsections, paragraphs_single hblank, htags, htitle.trimEnd_eq]
  simp [htitle.trim_eq]

end Comment

namespace Manuscript

theorem forall_cleanLine (m : Manuscript) (init : List Note) (last : Note) :
    ∀ l ∈ m.title.chars :: ([] :: init.map Note.line ++ [trimEnd last.line]), CleanLine l := by
  have hinit : ∀ l ∈ init.map Note.line, CleanLine l := by
    intro l hl
    obtain ⟨n, -, rfl⟩ := List.mem_map.mp hl
    exact n.line_clean
  have hlast : CleanLine (trimEnd last.line) :=
    last.line_clean.sublist (prefix_trimEnd last.line).sublist
  intro l hl
  simp only [List.cons_append, List.mem_cons, List.mem_append, List.not_mem_nil, or_false] at hl
  rcases hl with rfl | rfl | hl | rfl
  · exact m.title.clean
  · exact CleanLine.nil
  · exact hinit l hl
  · exact hlast

/-- A comment is read as it was written, whatever the order of its notes. -/
theorem parse_text (m : Manuscript) {notes : List Note} (hnotes : notes ≠ []) :
    Comment.parse (m.text notes) =
      { summary := String.ofList m.title.chars, details := "", tags := notes.map Note.tag } := by
  obtain ⟨init, last, rfl⟩ : ∃ init last, notes = init ++ [last] := by
    rcases List.eq_nil_or_concat' notes with h | h
    · exact absurd h hnotes
    · exact h
  obtain ⟨r, hr⟩ := last.line_head
  have hinked : ¬AllBlank last.line := fun h => absurd (h '@' (by simp [hr])) (by decide)
  have hend : Trimmed (trimEnd last.line) := trimmed_trimEnd (by simp [hr, isBlank])
  have hend' : trimEnd last.line ≠ [] := mt trimEnd_eq_nil.mp hinked
  have hclean := m.forall_cleanLine init last
  have htext : trim (m.text (init ++ [last])).toList =
      unlines (m.title.chars :: ([] :: init.map Note.line ++ [trimEnd last.line])) := by
    rw [text, String.toList_ofList, List.map_append, ← trim_unlines _ m.title.trimmed m.title_ne_nil
      hinked]
    rfl
  have hblock : ¬"/**".toList <+: trim (m.text (init ++ [last])).toList := by
    rw [htext, List.cons_append, unlines_cons_cons]
    exact fun h => m.title_no_block (prefix_of_prefix_separator (by decide) h)
  have hlines : lines (dedent (Comment.body (m.text (init ++ [last])).toList)) =
      m.title.chars :: [] :: (init.map Note.line ++ [trimEnd last.line]) := by
    rw [Comment.body_of_plain hblock, htext,
      dedent_unlines hclean m.title.trimmed m.title_ne_nil hend hend',
      lines_unlines (fun l hl => (hclean l hl).oneLine)
        (last_ne_nil hend' (m.title.chars :: [] :: init.map Note.line))]
    rfl
  rw [Comment.parse, hlines]
  apply Comment.ofLines_notes m.title_plain m.title.trimmed m.title_ne_nil
  simp [trim_trimEnd]

end Manuscript
end RouteDoc
