import RouteDoc.Group
import RouteDoc.Proofs.Comment.Rendering
/-! The first tag of a name in a comment. Its content is the text behind the name and the lines down to the
next tag line. Cleaning a text moves its lines, but whether one of them is a tag line of the name can be told
before. -/
namespace RouteDoc.Comment
open Text

def bodyLines : Option String → List (List Char)
  | none => []
  | some s => lines (body s.toList)

def cleanLines : Option String → List (List Char)
  | none => []
  | some s => lines (dedent (body s.toList))

def HasTagLine (name : String) (ls : List (List Char)) : Prop :=
  ∃ l ∈ ls, ∃ rest, IsTagLine l name.toList rest

/-- The content of the first tag of a name in lines: it begins on the first tag line of the name and ends
in front of the next tag line, whatever name that has. -/
inductive FirstContent (name : String) : List (List Char) → String → Prop where
  | intro {front following behind : List (List Char)} {line rest : List Char}
      (hfront : ¬HasTagLine name front) (hline : IsTagLine line name.toList rest)
      (hfollowing : ∀ l ∈ following, PlainLine l) (hbehind : ∀ l ∈ behind.head?, ¬PlainLine l) :
      FirstContent name (front ++ line :: (following ++ behind))
        (String.ofList (trim (unlines (rest :: following.map trim))))

variable {name : String} {ls : List (List Char)} {content : String}

theorem hasTagLine_cons {l : List Char} :
    HasTagLine name (l :: ls) ↔ (∃ rest, IsTagLine l name.toList rest) ∨ HasTagLine name ls :=
  List.exists_mem_cons_iff _ _ _

/-- The words of the lines tell whether there is a tag line of a name. -/
theorem hasTagLine_iff_words :
    HasTagLine name ls ↔ ∃ ws ∈ wordsOfLines ls, ∃ vs, tagWords? ws = some (name.toList, vs) := by
  constructor
  · rintro ⟨l, hl, rest, hline⟩
    have hne : words l ≠ [] := by
      intro hnil
      have hwords := hline.tagWords?
      rw [hnil, tagWords?] at hwords
      cases hwords
    exact ⟨words l, mem_wordsOfLines hl hne, words rest, hline.tagWords?⟩
  · rintro ⟨ws, hws, vs, htag⟩
    obtain ⟨l, hl, rfl⟩ := exists_of_mem_wordsOfLines hws
    exact ⟨l, hl, isTagLine_of_tagWords? htag⟩

theorem hasTagLine_cleanLines (comment : Option String) :
    HasTagLine name (cleanLines comment) ↔ HasTagLine name (bodyLines comment) := by
  cases comment with
  | none => rfl
  | some s =>
    rw [hasTagLine_iff_words, hasTagLine_iff_words, cleanLines, bodyLines, ← page_eq_wordsOfLines,
      page_dedent, page_eq_wordsOfLines]

theorem FirstContent.cons {l : List Char} (hl : ¬∃ rest, IsTagLine l name.toList rest)
    (h : FirstContent name ls content) : FirstContent name (l :: ls) content := by
  cases h with
  | @intro front following behind line rest hfront hline hfollowing hbehind =>
    rw [← List.cons_append]
    exact .intro (mt hasTagLine_cons.mp (not_or.mpr ⟨hl, hfront⟩)) hline hfollowing hbehind

theorem exists_firstContent (h : HasTagLine name ls) : ∃ content, FirstContent name ls content := by
  induction ls with
  | nil =>
    obtain ⟨l, hl, -⟩ := h
    cases hl
  | cons l ls ih =>
    by_cases hl : ∃ rest, IsTagLine l name.toList rest
    · obtain ⟨rest, hline⟩ := hl
      have hfollowing : ∀ m ∈ ls.takeWhile (PlainLine ·), PlainLine m := fun m hm => by
        simpa using List.mem_takeWhile_imp hm
      have hbehind : ∀ m ∈ (ls.dropWhile (PlainLine ·)).head?, ¬PlainLine m := fun m hm => by
        have hstop := List.head?_dropWhile_not (PlainLine ·) ls
        rw [hm] at hstop
        simpa using hstop
      rw [← List.nil_append (l :: ls), ← List.takeWhile_append_dropWhile (p := (PlainLine ·)) (l := ls)]
      exact ⟨_, .intro (by rintro ⟨m, hm, -⟩; cases hm) hline hfollowing hbehind⟩
    · obtain ⟨content, hcontent⟩ := ih ((hasTagLine_cons.mp h).resolve_left hl)
      exact ⟨content, hcontent.cons hl⟩

/-- Lines without a tag line of the name may stand in front. -/
theorem firstTag?_append {front : List (List Char)} (h : ¬HasTagLine name front)
    (ls : List (List Char)) :
    firstTag? name (ofLines (front ++ ls)).tags = firstTag? name (ofLines ls).tags := by
  induction front with
  | nil => rfl
  | cons l front ih =>
    obtain ⟨hl, hfront⟩ := not_or.mp (mt hasTagLine_cons.mpr h)
    rw [List.cons_append, ← ih hfront, ofLines_eq, ofLines_eq]
    cases ht : tagLine? (trim l) with
    | none => rw [sections_plain ht]
    | some t =>
      obtain ⟨rest, hline, -⟩ := isTagLine_of_tagLine? (t := t.2) ht
      have hname : ¬String.ofList t.1 = name := by
        rintro rfl
        exact hl ⟨rest, by rwa [String.toList_ofList]⟩
      rw [sections_tag ht, firstTag?, firstTag?, List.map_cons, List.find?_cons_of_neg]
      simpa [tagOf] using hname

theorem FirstContent.firstTag? (h : FirstContent name ls content) :
    firstTag? name (ofLines ls).tags = some content := by
  cases h with
  | @intro front following behind line rest hfront hline hfollowing hbehind =>
    have hstop : (sections behind).1 = [] := by
      cases behind with
      | nil => rfl
      | cons m behind =>
        obtain ⟨t, ht⟩ := Option.ne_none_iff_exists'.mp (mt plainLine_iff_tagLine?.mpr (hbehind m rfl))
        rw [sections_tag ht]
    have hcut (ms : List (List Char)) :
        trim (unlines (trimStart rest :: ms)) = trim (unlines (rest :: ms)) := by
      obtain ⟨a, ha, hrest⟩ := exists_trimStart rest
      conv_rhs => rw [hrest, unlines_append_cons, trim_blanks_append ha]
    rw [firstTag?_append hfront, ofLines_eq, sections_tag hline.tagLine?,
      sections_append_plain hfollowing, hstop, List.append_nil, Comment.firstTag?, List.map_cons,
      List.find?_cons_of_pos (by simp [tagOf]), Option.map_some, tagOf, hcut]

/-- The first tag of a name has its content. -/
theorem firstTag?_eq_some_iff :
    firstTag? name (ofLines ls).tags = some content ↔ FirstContent name ls content := by
  refine ⟨fun h => ?_, FirstContent.firstTag?⟩
  by_cases hname : HasTagLine name ls
  · obtain ⟨c, hc⟩ := exists_firstContent hname
    obtain rfl := Option.some.inj (hc.firstTag?.symm.trans h)
    exact hc
  · rw [← List.append_nil ls, firstTag?_append hname] at h
    cases h

theorem hasTagLine_iff_exists : HasTagLine name ls ↔ ∃ content, FirstContent name ls content := by
  refine ⟨exists_firstContent, ?_⟩
  rintro ⟨content, @⟨front, following, behind, line, rest, -, hline, -, -⟩⟩
  exact ⟨line, by simp, rest, hline⟩

theorem firstTag?_eq_none_iff : firstTag? name (ofLines ls).tags = none ↔ ¬HasTagLine name ls := by
  simp only [Option.eq_none_iff_forall_ne_some, ne_eq, firstTag?_eq_some_iff, hasTagLine_iff_exists,
    not_exists]

theorem tags_ofDocstring (comment : Option String) :
    (ofDocstring comment).tags = (ofLines (cleanLines comment)).tags := by
  cases comment <;> rfl

end RouteDoc.Comment
