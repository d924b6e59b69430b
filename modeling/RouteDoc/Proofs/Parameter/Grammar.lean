import RouteDoc.Proofs.Parameter.TagLine
import RouteDoc.Proofs.Text.Margin
/-! The grammar of parameter tags: a name, a type, perhaps the flag, and a description. The cursor that
reads a content agrees with the grammar on every text, so that the blanks around and between the parts
make no difference. -/
namespace RouteDoc
open Text

namespace Text

structure IsWord (w : List Char) : Prop where
  inked : ∀ c ∈ w, isBlank c = false
  ne_nil : w ≠ []

theorem IsWord.trimmed {w : List Char} (h : IsWord w) : Trimmed w :=
  ⟨fun c hc => h.inked c (List.mem_of_mem_head? hc), fun c hc => h.inked c (List.mem_of_getLast? hc)⟩

instance (s : List Char) : Decidable (AllBlank s) := decidable_of_iff _ all_isBlank_iff

def OffWord (s : List Char) : Prop := ∀ c ∈ s.head?, isBlank c = true

instance (s : List Char) : Decidable (OffWord s) :=
  decidable_of_iff (s.head?.all isBlank = true) (by cases s <;> simp [OffWord])

theorem IsWord.not_allBlank {w : List Char} (h : IsWord w) : ¬AllBlank w := by
  obtain ⟨c, hc⟩ := List.exists_mem_of_ne_nil w h.ne_nil
  exact fun hb => absurd (hb c hc) (by simp [h.inked c hc])

theorem OffWord.trimEnd {s : List Char} (h : OffWord s) : OffWord (trimEnd s) := by
  obtain ⟨b, hb⟩ := prefix_trimEnd s
  intro c hc
  apply h
  rw [← hb, List.head?_append, Option.mem_def.mp hc]
  rfl

/-- Nothing before a word is cut at the end of a text. -/
theorem IsWord.trimEnd_append {w : List Char} (h : IsWord w) (s t : List Char) :
    trimEnd (s ++ w ++ t) = s ++ w ++ trimEnd t := by
  by_cases ht : AllBlank t
  · rw [Text.trimEnd_append ht, trimEnd_append_inked h.not_allBlank, h.trimmed.trimEnd_eq,
      trimEnd_eq_nil.mpr ht, List.append_nil]
  · rw [trimEnd_append_inked ht]

def afterWord (s : List Char) : List Char := (trimStart s).dropWhile (!isBlank ·)

def afterWords : Nat → List Char → List Char
  | 0, s => s
  | n + 1, s => afterWords n (afterWord s)

theorem IsWord.afterWord_append {w a t : List Char} (h : IsWord w) (ha : AllBlank a) (ht : OffWord t) :
    afterWord (a ++ w ++ t) = t := by
  have hw : ∀ c ∈ w, (!isBlank c) = true := fun c hc => by rw [h.inked c hc]; rfl
  obtain ⟨c, r, rfl⟩ := List.exists_cons_of_ne_nil h.ne_nil
  rw [afterWord, List.append_assoc, trimStart_append ha, List.cons_append,
    trimStart_of_head (h.inked c (by simp)), ← List.cons_append, List.dropWhile_append_of_pos hw]
  cases t with
  | nil => rfl
  | cons b u => simp [ht b rfl]

theorem exists_word {s w : List Char} {ws : List (List Char)} (h : words s = w :: ws) :
    ∃ a t, s = a ++ w ++ t ∧ AllBlank a ∧ IsWord w ∧ OffWord t ∧ words t = ws := by
  have hs : ¬AllBlank s := fun hb => by simp [hb.words_eq] at h
  obtain ⟨a, v, t, hst, ha, hv, hne, ht, hwords⟩ := exists_first_word hs
  obtain ⟨rfl, rfl⟩ := List.cons.inj (hwords.symm.trans h)
  exact ⟨a, t, hst, ha, ⟨hv, hne⟩, ht, rfl⟩

end Text

theorem ParamType.ofName?_name (type : ParamType) : ofName? type.name = some type := by
  cases type <;> rfl

namespace Tag

/-- The contents with a name, a type, a flag or none, and a description. Where the flag is missing, the
description does not start with its word. -/
inductive Content (name type : List Char) : Bool → List Char → List Char → Prop where
  | plain {a b rest : List Char} (ha : AllBlank a) (hb : AllBlank b) (hgap : b ≠ [])
      (hrest : OffWord rest) (hplain : (words rest).head? ≠ some requiredWord) :
      Content name type false (trim rest) (a ++ name ++ (b ++ type ++ rest))
  | flagged {a b c rest : List Char} (ha : AllBlank a) (hb : AllBlank b) (hgap : b ≠ [])
      (hc : AllBlank c) (hgap' : c ≠ []) (hrest : OffWord rest) :
      Content name type true (trim rest) (a ++ name ++ (b ++ type ++ (c ++ requiredWord ++ rest)))

theorem isWord_requiredWord : IsWord requiredWord := ⟨requiredWord_inked, by decide⟩

theorem offWord_of_gap {b : List Char} (hb : AllBlank b) (hgap : b ≠ []) (s : List Char) :
    OffWord (b ++ s) := by
  obtain ⟨c, r, rfl⟩ := List.exists_cons_of_ne_nil hgap
  simpa [OffWord] using hb c (by simp)

theorem gap_of_offWord {b w s : List Char} (hw : IsWord w) (h : OffWord (b ++ w ++ s)) : b ≠ [] := by
  rintro rfl
  obtain ⟨c, r, rfl⟩ := List.exists_cons_of_ne_nil hw.ne_nil
  have hc := h c rfl
  simp [hw.inked c (by simp)] at hc

/-- The fields of a content are read behind its first two words. -/
theorem fields?_append {a name b type rest : List Char} (ha : AllBlank a) (hname : IsWord name)
    (hb : AllBlank b) (hgap : b ≠ []) (htype : IsWord type) (hrest : OffWord rest) :
    ∃ passed, fields? (a ++ name ++ (b ++ type ++ rest)) =
      some (name, type, splitFlag ⟨passed, trimEnd rest⟩) := by
  have htrim : trim (a ++ name ++ (b ++ type ++ rest)) = name ++ b ++ type ++ trimEnd rest := by
    obtain ⟨c, r, hc⟩ := List.exists_cons_of_ne_nil hname.ne_nil
    have hstart : trimStart (a ++ name ++ (b ++ type ++ rest)) = name ++ b ++ type ++ rest := by
      rw [List.append_assoc, trimStart_append ha, hc, List.cons_append,
        trimStart_of_head (hname.inked c (by simp [hc]))]
      simp
    rw [trim, hstart, htype.trimEnd_append]
  exact ⟨_, fields?_of_words htrim hname.inked hname.ne_nil hb hgap htype.inked htype.ne_nil
    hrest.trimEnd⟩

/-- The cursor reads every content as the grammar has it. -/
theorem Content.fields? {name type text content : List Char} {required : Bool} (hname : IsWord name)
    (htype : IsWord type) (h : Content name type required text content) :
    fields? content = some (name, type, required, text) := by
  cases h with
  | @plain a b rest ha hb hgap hrest hplain =>
    obtain ⟨passed, hfields⟩ := fields?_append ha hname hb hgap htype hrest
    have hhead : (words (trimEnd rest)).head? ≠ some requiredWord := by rwa [words_trimEnd]
    rw [hfields, splitFlag_of_unflagged hhead, trim_trimEnd]
  | @flagged a b c rest ha hb hgap hc hgap' hrest =>
    have hoff : OffWord (c ++ requiredWord ++ rest) := by
      rw [List.append_assoc]
      exact offWord_of_gap hc hgap' _
    obtain ⟨passed, hfields⟩ := fields?_append ha hname hb hgap htype hoff
    rw [hfields, isWord_requiredWord.trimEnd_append, splitFlag_of_word rfl hc requiredWord_inked
      isWord_requiredWord.ne_nil hrest.trimEnd, if_pos rfl, trim_trimEnd]

def wordsBefore (required : Bool) : Nat := if required then 3 else 2

/-- Every content with a name and a type is one of the grammar: the third word alone decides about the
flag, and the description is what follows. -/
theorem exists_content {content name type : List Char} {more : List (List Char)}
    (h : words content = name :: type :: more) :
    let required := decide (more.head? = some requiredWord)
    IsWord name ∧ IsWord type ∧
      Content name type required (trim (afterWords (wordsBefore required) content)) content := by
  obtain ⟨a, s, rfl, ha, hname, hs, hwords⟩ := exists_word h
  obtain ⟨b, rest, rfl, hb, htype, hrest, rfl⟩ := exists_word hwords
  have hgap : b ≠ [] := gap_of_offWord htype hs
  have hafter : afterWords 2 (a ++ name ++ (b ++ type ++ rest)) = rest := by
    rw [afterWords, hname.afterWord_append ha hs, afterWords, htype.afterWord_append hb hrest, afterWords]
  refine ⟨hname, htype, ?_⟩
  by_cases hflag : (words rest).head? = some requiredWord
  · obtain ⟨ws, hws⟩ := List.head?_eq_some_iff.mp hflag
    obtain ⟨c, t, rfl, hc, hword, ht, -⟩ := exists_word hws
    have hafter' : afterWords 3 (a ++ name ++ (b ++ type ++ (c ++ requiredWord ++ t))) = t := by
      rw [afterWords, hname.afterWord_append ha hs, afterWords, htype.afterWord_append hb hrest,
        afterWords, hword.afterWord_append hc ht, afterWords]
    simp only [hflag, decide_true, wordsBefore, if_true, hafter']
    exact .flagged ha hb hgap hc (gap_of_offWord hword hrest) ht
  · simp only [hflag, decide_false, wordsBefore, Bool.false_eq_true, if_false, hafter]
    exact .plain ha hb hgap hrest hflag

/-- Two contents of the same parts: they differ in the blanks around and between these only. -/
inductive SameParts (s s' : List Char) : Prop where
  | intro {name type text : List Char} {required : Bool} (hname : IsWord name) (htype : IsWord type)
      (h : Content name type required text s) (h' : Content name type required text s')

def draftOf (name type : List Char) (required : Bool) (text : List Char) : Draft where
  name := String.ofList name
  type := (ParamType.ofDeclared (String.ofList type)).name
  description := String.ofList (Description.split text).1
  required := required
  sample := match (Description.split text).2 with
    | some e => .given ((ParamType.ofDeclared (String.ofList type)).cast (String.ofList e))
    | none => .wanted (ParamType.ofDeclared (String.ofList type))

theorem draft?_eq_map (t : Tag) : t.draft? = (fields? t.content.toList).map
    fun (name, type, required, text) => draftOf name type required text := rfl

theorem draft?_of_content {t : Tag} {name type text : List Char} {required : Bool}
    (hname : IsWord name) (htype : IsWord type)
    (h : Content name type required text t.content.toList) :
    t.draft? = some (draftOf name type required text) := by
  rw [draft?_eq_map, h.fields? hname htype]
  rfl

theorem draft?_eq_of_sameParts {t u : Tag} (h : SameParts t.content.toList u.content.toList) :
    u.draft? = t.draft? := by
  cases h with
  | intro hname htype h h' =>
    rw [draft?_of_content hname htype h, draft?_of_content hname htype h']

/-- The type of a draft is canonical. -/
theorem ofName?_draftOf (name type : List Char) (required : Bool) (text : List Char) :
    ParamType.ofName? (draftOf name type required text).type =
      some (ParamType.ofDeclared (String.ofList type)) := by
  rw [draftOf, ParamType.ofName?_name]

/-- Reading stops at a tag without a name or without a type, whatever its kind is. -/
theorem ofTags_of_draft?_eq_none {t : Tag} (h : t.draft? = none) (uri : Option String)
    (ts : List Tag) :
    Reading.ofTags (ParamKind.ofTagName? t.name) uri (t :: ts) = { error := some ⟨t, uri⟩ } := by
  rw [Reading.ofTags, if_pos rfl, h]

/-- A parameter tag is read as the grammar has it. With fewer than two words it is refused. Otherwise
the first two words are name and type, a third word `required` is the flag, the description with its
example is what follows, and blanks around the parts make no difference. -/
theorem draft?_grammar (t : Tag) :
    ((words t.content.toList).length < 2 → t.draft? = none ∧
      ∀ uri ts, Reading.ofTags (ParamKind.ofTagName? t.name) uri (t :: ts) =
        { error := some ⟨t, uri⟩ }) ∧
    (∀ name type more, words t.content.toList = name :: type :: more →
      let required := decide (more.head? = some requiredWord)
      let text := trim (afterWords (wordsBefore required) t.content.toList)
      t.draft? = some (draftOf name type required text) ∧
        ParamType.ofName? (draftOf name type required text).type =
          some (ParamType.ofDeclared (String.ofList type))) ∧
    ∀ u : Tag, SameParts t.content.toList u.content.toList → u.draft? = t.draft? := by
  refine ⟨fun hshort => ?_, fun name type more hwords => ?_, fun u => draft?_eq_of_sameParts⟩
  · have hnone : t.draft? = none := by
      rw [draft?_eq_map, fields?_eq_none_iff.mpr hshort]
      rfl
    exact ⟨hnone, ofTags_of_draft?_eq_none hnone⟩
  · intro required text
    obtain ⟨hname, htype, hcontent⟩ := exists_content hwords
    exact ⟨draft?_of_content hname htype hcontent, ofName?_draftOf name type required text⟩

def doubled : Tag := ⟨"queryParam", "mode string required required"⟩

def doubledSpaced : Tag := ⟨"queryParam", "\u00a0mode\n string\trequired\u3000 required "⟩

theorem doubled_sameParts : SameParts doubled.content.toList doubledSpaced.content.toList := by
  have hname : IsWord "mode".toList := ⟨inked_of_all (by decide), by decide⟩
  have htype : IsWord "string".toList := ⟨inked_of_all (by decide), by decide⟩
  have hclose : doubled.content.toList = [] ++ "mode".toList ++ ([' '] ++ "string".toList ++
      ([' '] ++ requiredWord ++ " required".toList)) := by decide
  have hspaced : doubledSpaced.content.toList = ['\u00a0'] ++ "mode".toList ++ (['\n', ' '] ++
      "string".toList ++ (['\t'] ++ requiredWord ++ "\u3000 required ".toList)) := by decide
  have htext : trim "\u3000 required ".toList = trim " required".toList := by decide
  have hoff : OffWord " required".toList := by decide
  have hoffWide : OffWord "\u3000 required ".toList := by decide
  rw [hclose, hspaced]
  refine .intro hname htype
    (.flagged (by decide) (by decide) (by decide) (by decide) (by decide) hoff) ?_
  rw [← htext]
  exact .flagged (by decide) (by decide) (by decide) (by decide) (by decide) hoffWide

theorem draft?_grammar_doubled :
    Reading.ofTags (some .path) none [⟨"pathParam", " lonely\t"⟩] =
        { error := some ⟨⟨"pathParam", " lonely\t"⟩, none⟩ } ∧
      doubled.draft? = some (draftOf "mode".toList "string".toList true "required".toList) ∧
      doubledSpaced.draft? = doubled.draft? :=
  ⟨((draft?_grammar ⟨"pathParam", " lonely\t"⟩).1 (by decide)).2 none [],
    ((draft?_grammar doubled).2.1 _ _ ["required".toList, "required".toList] rfl).1,
    (draft?_grammar doubled).2.2 _ doubled_sameParts⟩

end Tag
end RouteDoc
