import RouteDoc.Proofs.Extraction.Draws
import RouteDoc.Proofs.Parameter.Cast
import RouteDoc.Proofs.Parameter.Constraint
/-! The sample of a parameter and its type. Whatever the count, a sample that is drawn is of the type; an inline
example is read as the type, or kept where it does not read so. -/
namespace RouteDoc
open Text

def canonicalNames : List String :=
  ["integer", "numeric", "float", "boolean", "string", "array", "json", "image"]

def Tag.inline? (t : Tag) : Option String :=
  (fields? t.content.toList).bind fun f => (Description.split f.2.2.2).2.map String.ofList

/-- The samples that fit a type, for a parameter with an inline example or without one. The last case is that
of an example that does not read as its type. -/
inductive Fits (inline : Option String) : ParamType → Value → Prop where
  | drawnInteger {n : Int} (hnone : inline = none) (hlow : 0 ≤ n) (hhigh : n ≤ 99999) :
      Fits inline .integer (.int n)
  | readInteger {e : String} {n : Int} (he : inline = some e) (h : Numeral.Spells n e.toList) :
      Fits inline .integer (.int n)
  | float (x : Binary64) : Fits inline .float (.float x)
  | numericExample {v : Value} (hnone : inline = none) (hv : v ∈ Recipe.numericExamples) :
      Fits inline .numeric v
  | numericFloat (x : Binary64) : Fits inline .numeric (.float x)
  | boolean (b : Bool) : Fits inline .boolean (.bool b)
  | text {t : ParamType} (s : String) (ht : t ∈ [.string, .array, .json, .image]) :
      Fits inline t (.text s)
  | kept {t : ParamType} {e : String} (he : inline = some e)
      (ht : t ∈ [.integer, .numeric, .float, .boolean]) (hunread : ∀ v, ¬ParamType.Reads e t v)
      (hne : e ≠ "") (htrimmed : Trimmed e.toList) : Fits inline t (.text e)

theorem ParamType.name_mem_canonicalNames (t : ParamType) : t.name ∈ canonicalNames := by
  cases t <;> decide

theorem Recipe.numericExamples_getD_mem (n : Int) :
    numericExamples.getD (n % numericExamples.length).toNat .null ∈ numericExamples := by
  have hlength : (0 : Int) < numericExamples.length := by decide
  have hlow := Int.emod_nonneg n (Int.ne_of_gt hlength)
  have hhigh := Int.emod_lt_of_pos n hlength
  have hlt : (n % numericExamples.length).toNat < numericExamples.length := by omega
  rw [List.getD_eq_getElem?_getD, List.getElem?_eq_getElem hlt, Option.getD_some]
  exact List.getElem_mem hlt

/-- The recipe that a type has from the start makes samples of the type, at any count. -/
theorem Recipe.fits_value (t : ParamType) (n : Int) : Fits none t ((ofType t).value n) := by
  cases t with
  | integer =>
    have hlow : 0 ≤ n * 7919 % 100000 := Int.emod_nonneg _ (by decide)
    have hhigh : n * 7919 % 100000 < 100000 := Int.emod_lt_of_pos _ (by decide)
    exact .drawnInteger rfl hlow (Int.le_of_lt_add_one hhigh)
  | numeric => exact .numericExample rfl (numericExamples_getD_mem n)
  | float => exact .float _
  | boolean => exact .boolean _
  | string => exact .text _ (by decide)
  | array => exact .text _ (by decide)
  | json => exact .text _ (by decide)
  | image => exact .text _ (by decide)

theorem Synthesizer.fits_synthesize (n : Int) (t : ParamType) :
    Fits none t ((Synthesizer.countingFrom n).synthesize t.name).1 := by
  rw [synthesize_countingFrom]
  exact Recipe.fits_value t n

/-- An inline example is never empty and has no blanks at its ends. -/
theorem Description.exampleOf_split {s e : List Char} (h : (split s).2 = some e) :
    e ≠ [] ∧ Trimmed e := by
  rw [split] at h
  split at h
  case h_1 => cases h
  case h_2 before after _ =>
    simp only at h
    split at h
    case isTrue => cases h
    case isFalse hne =>
      obtain rfl := Option.some.inj h
      exact ⟨by simpa using hne, trimmed_trim after⟩

/-- An example is cast to a sample that fits, or kept. -/
theorem fits_cast {e : List Char} (hne : e ≠ []) (htrimmed : Trimmed e) (t : ParamType) :
    Fits (some (String.ofList e)) t (t.cast (String.ofList e)) := by
  cases ParamType.cast_reads_or_text (String.ofList e) t with
  | inl hreads =>
    generalize t.cast (String.ofList e) = v at hreads
    cases hreads with
    | integer h => exact .readInteger rfl h
    | numeric => exact .numericFloat _
    | float => exact .float _
    | no => exact .boolean _
    | yes => exact .boolean _
  | inr htext =>
    obtain ⟨hunread, htext⟩ := htext
    rw [htext]
    by_cases ht : t ∈ [.integer, .numeric, .float, .boolean]
    · refine .kept rfl ht hunread (fun h => hne ?_) (by rwa [String.toList_ofList])
      simpa using congrArg String.toList h
    · have htextual : t ∈ [.string, .array, .json, .image] := by cases t <;> simp at ht ⊢
      exact .text _ htextual

theorem Synthesizer.type_fill_draftOf (s : Synthesizer) (name type : List Char) (required : Bool)
    (text : List Char) : (s.fill (Tag.draftOf name type required text)).1.type =
      (ParamType.ofDeclared (String.ofList type)).name := by
  rw [(s.fill_filledBy _).type, Tag.draftOf]

theorem fits_fill_draftOf (n : Int) (name type : List Char) (required : Bool) (text : List Char) :
    Fits ((Description.split text).2.map String.ofList) (.ofDeclared (String.ofList type))
      ((Synthesizer.countingFrom n).fill (Tag.draftOf name type required text)).1.sample := by
  cases hexample : (Description.split text).2 with
  | none =>
    simp only [Tag.draftOf, Synthesizer.fill, hexample]
    exact Synthesizer.fits_synthesize n _
  | some e =>
    obtain ⟨hne, htrimmed⟩ := Description.exampleOf_split hexample
    simp only [Tag.draftOf, Synthesizer.fill, hexample]
    exact fits_cast hne htrimmed _

/-- At every count, the sample of a tag that can be read fits the tag's type, and the sample of a rule that has
a text fits the type with precedence among the rule's tokens. -/
theorem samples_fit (n : Int) :
    (∀ (t : Tag) (d : Draft), t.draft? = some d →
      ∃ c : ParamType, ((Synthesizer.countingFrom n).fill d).1.type = c.name ∧
        c.name ∈ canonicalNames ∧
        Fits t.inline? c ((Synthesizer.countingFrom n).fill d).1.sample) ∧
    ∀ (room : Nat) (name : String) (rule : Value), match Rule.tokens room rule with
      | .error e => Rule.parameter room (.countingFrom n) name rule = .error e
      | .ok ts => ∃ c p, Rule.parameter room (.countingFrom n) name rule = .ok p ∧
        Rule.Preferred ts c ∧ c.name ∈ canonicalNames ∧ Fits none c p.sample := by
  refine ⟨fun t d hd => ?_, fun room name rule => ?_⟩
  · rw [Tag.draft?_eq_map] at hd
    obtain ⟨⟨tagged, type, required, text⟩, hfields, rfl⟩ := Option.map_eq_some_iff.mp hd
    refine ⟨.ofDeclared (String.ofList type), ?_, ParamType.name_mem_canonicalNames _, ?_⟩
    · exact Synthesizer.type_fill_draftOf _ tagged type required text
    · rw [Tag.inline?, hfields, Option.bind_some]
      exact fits_fill_draftOf n tagged type required text
  · rw [Rule.parameter_eq, Rule.tokens]
    cases Rule.text room rule with
    | error e => rfl
    | ok u =>
      exact ⟨_, _, rfl, Rule.preferred_typeOf _, ParamType.name_mem_canonicalNames _,
        Synthesizer.fits_synthesize n _⟩

def wordyAge : Tag := ⟨"bodyParam", "age INT required Years. Example:\t forty two "⟩

def wordyAgeDraft : Draft :=
  Tag.draftOf "age".toList "INT".toList true "Years. Example:\t forty two".toList

theorem wordyAge_fields? : Tag.fields? wordyAge.content.toList =
    some ("age".toList, "INT".toList, true, "Years. Example:\t forty two".toList) := by
  decide +kernel

theorem wordyAge_draft? : wordyAge.draft? = some wordyAgeDraft := by
  rw [Tag.draft?_eq_map, wordyAge_fields?]
  rfl

theorem samples_fit_wordyAge :
    let filled := ((Synthesizer.countingFrom (-7)).fill wordyAgeDraft).1
    wordyAge.inline? = some "forty two" ∧ filled.sample = .text "forty two" ∧
      ∃ c : ParamType, filled.type = c.name ∧ c.name ∈ canonicalNames ∧
        Fits wordyAge.inline? c filled.sample := by
  refine ⟨by decide +kernel, ?_, (samples_fit (-7)).1 wordyAge wordyAgeDraft wordyAge_draft?⟩
  have hexample : (Description.split "Years. Example:\t forty two".toList).2 =
      some "forty two".toList := by decide +kernel
  have hunread : Numeral.integer? "forty two".toList = none := by decide +kernel
  have hint : ParamType.ofDeclared "INT" = .integer := by decide +kernel
  simp only [wordyAgeDraft, Tag.draftOf, hexample, String.ofList_toList, hint, Synthesizer.fill,
    ParamType.cast, hunread]
  rfl

end RouteDoc
