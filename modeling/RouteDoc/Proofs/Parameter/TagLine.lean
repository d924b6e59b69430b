import RouteDoc.Parameter.TagLine
import RouteDoc.Proofs.Text.Words
/-! Parameter tags: what the cursor finds in a content. A third word `required` is the flag, whether
more text follows it or not. -/
namespace RouteDoc
open Text

namespace Cursor

theorem splitWord_of_allBlank {s : List Char} (h : AllBlank s) : splitWord s = none := by
  have hd : s.dropWhile isBlank = [] := trimStart_eq_nil.mpr h
  simp [splitWord, hd]

theorem splitWord_append {a w t : List Char} (ha : AllBlank a)
    (hw : ∀ c ∈ w, isBlank c = false) (hne : w ≠ []) (ht : ∀ c ∈ t.head?, isBlank c = true) :
    splitWord (a ++ w ++ t) = some (a, w, t) := by
  have hw' : ∀ c ∈ w, (!isBlank c) = true := fun c hc => by rw [hw c hc]; rfl
  obtain ⟨c, r, rfl⟩ := List.exists_cons_of_ne_nil hne
  have hc : isBlank c = false := hw c (by simp)
  have hdrop : (a ++ (c :: r ++ t)).dropWhile isBlank = c :: (r ++ t) := by
    rw [List.dropWhile_append_of_pos ha, List.cons_append,
      List.dropWhile_cons_of_neg (by simp [hc])]
  have htake : (a ++ (c :: r ++ t)).takeWhile isBlank = a := by
    rw [List.takeWhile_append_of_pos ha, List.cons_append,
      List.takeWhile_cons_of_neg (by simp [hc]), List.append_nil]
  have hword : (c :: r ++ t).takeWhile (!isBlank ·) = c :: r := by
    rw [List.takeWhile_append_of_pos hw']
    cases t with
    | nil => simp
    | cons b u => simp [ht b rfl]
  have hrest : (c :: r ++ t).dropWhile (!isBlank ·) = t := by
    rw [List.dropWhile_append_of_pos hw']
    cases t with
    | nil => rfl
    | cons b u => simp [ht b rfl]
  rw [List.append_assoc, splitWord, hdrop, htake]
  simp only [← List.cons_append, hword, hrest]

theorem next_of_splitWord {c : Cursor} {a w t : List Char}
    (h : splitWord c.ahead = some (a, w, t)) :
    c.next = (some w, ⟨c.passed ++ a ++ w, t⟩) := by
  rw [next, h]

/-- What follows a word is empty or starts with a blank. -/
theorem blank_of_splitWord {s a w t : List Char} (h : splitWord s = some (a, w, t)) :
    ∀ b ∈ t.head?, isBlank b = true := by
  rw [splitWord] at h
  split at h
  case h_1 => cases h
  case h_2 c r _ =>
    cases h
    intro b hb
    have hstop := List.head?_dropWhile_not (!isBlank ·) (c :: r)
    rw [Option.mem_def.mp hb] at hstop
    simpa using hstop

/-- The blank behind a word tells whether the text ends with it. -/
theorem peek_of_splitWord {c : Cursor} {a w t : List Char}
    (h : splitWord c.ahead = some (a, w, t)) :
    c.peek = (some w, !t.isEmpty) := by
  rw [peek, h]
  cases t with
  | nil => rfl
  | cons b u => simp [blank_of_splitWord h b rfl]

theorem exists_next {c : Cursor} (h : ¬AllBlank c.ahead) :
    ∃ w d, c.next = (some w, d) ∧ words c.ahead = w :: words d.ahead := by
  obtain ⟨a, w, t, hc, ha, hw, hne, ht, hwords⟩ := exists_first_word h
  have hsplit : splitWord c.ahead = some (a, w, t) := by
    rw [hc, splitWord_append ha hw hne ht]
  exact ⟨w, _, next_of_splitWord hsplit, hwords⟩

theorem next_of_allBlank {c : Cursor} (h : AllBlank c.ahead) : c.next = (none, c) := by
  rw [next, splitWord_of_allBlank h]

theorem rest_fst (c : Cursor) : c.rest.1 = c.ahead := rfl

end Cursor

namespace Tag

theorem requiredWord_trimmed : Trimmed requiredWord := by decide

theorem requiredWord_inked : ∀ c ∈ requiredWord, isBlank c = false := inked_of_all rfl

theorem splitFlag_of_allBlank {c : Cursor} (h : AllBlank c.ahead) : splitFlag c = (false, []) := by
  have htrim : trim c.ahead = [] := by rw [trim, trimStart_eq_nil.mpr h]; rfl
  have hpeek : c.peek = (none, false) := by rw [Cursor.peek, Cursor.splitWord_of_allBlank h]
  have hne : ([] : List Char) ≠ requiredWord := by decide
  rw [splitFlag, hpeek]
  simp [Cursor.rest_fst, htrim, hne]

/-- The third word is the flag when it is `required`; otherwise it belongs to the description. -/
theorem splitFlag_of_word {c : Cursor} {a w t : List Char} (hc : c.ahead = a ++ w ++ t)
    (ha : AllBlank a) (hw : ∀ d ∈ w, isBlank d = false) (hne : w ≠ [])
    (ht : ∀ d ∈ t.head?, isBlank d = true) :
    splitFlag c = if w = requiredWord then (true, trim t) else (false, trim c.ahead) := by
  have hsplit : Cursor.splitWord c.ahead = some (a, w, t) := by
    rw [hc, Cursor.splitWord_append ha hw hne ht]
  have hmore : c.hasMore = true := by
    obtain ⟨d, r, rfl⟩ := List.exists_cons_of_ne_nil hne
    simp [Cursor.hasMore, hc]
  rw [splitFlag, Cursor.peek_of_splitWord hsplit, Cursor.next_of_splitWord hsplit, hmore]
  cases t with
  | cons b u => rfl
  | nil =>
    have hends : Trimmed w :=
      ⟨fun d hd => hw d (List.mem_of_mem_head? hd), fun d hd => hw d (List.mem_of_getLast? hd)⟩
    have htrim : trim c.ahead = w := by
      rw [hc]
      exact trim_append ha (by simp [AllBlank]) hends
    simp only [Cursor.rest_fst, htrim]
    by_cases h : w = requiredWord
    · rw [if_pos h]
      simp [h, trim, trimStart, trimEnd]
    · rw [if_neg h]
      simp [h]

/-- A text that does not start with the flag is the description as it stands. -/
theorem splitFlag_of_unflagged {c : Cursor} (h : (words c.ahead).head? ≠ some requiredWord) :
    splitFlag c = (false, trim c.ahead) := by
  by_cases hb : AllBlank c.ahead
  · rw [splitFlag_of_allBlank hb, trim, trimStart_eq_nil.mpr hb]
    rfl
  · obtain ⟨a, w, t, hc, ha, hw, hne, ht, hwords⟩ := exists_first_word hb
    have hflag : w ≠ requiredWord := by
      rintro rfl
      exact h (by rw [hwords]; rfl)
    rw [splitFlag_of_word hc ha hw hne ht, if_neg hflag]

/-- Name and type are the first two words of a content. -/
theorem fields?_of_words {content name a type tail : List Char}
    (h : trim content = name ++ a ++ type ++ tail)
    (hname : ∀ c ∈ name, isBlank c = false) (hname' : name ≠ [])
    (ha : AllBlank a) (ha' : a ≠ [])
    (htype : ∀ c ∈ type, isBlank c = false) (htype' : type ≠ [])
    (htail : ∀ c ∈ tail.head?, isBlank c = true) :
    fields? content = some (name, type, splitFlag ⟨name ++ a ++ type, tail⟩) := by
  have hhead : ∀ c ∈ (a ++ type ++ tail).head?, isBlank c = true := by
    obtain ⟨b, r, rfl⟩ := List.exists_cons_of_ne_nil ha'
    simpa using ha b (by simp)
  have hfirst : (Cursor.start (trim content)).next = (some name, ⟨name, a ++ type ++ tail⟩) := by
    have hsplit : Cursor.splitWord ([] ++ name ++ (a ++ type ++ tail)) = some ([], name, _) :=
      Cursor.splitWord_append (by simp [AllBlank]) hname hname' hhead
    have hstart : Cursor.splitWord (Cursor.start (trim content)).ahead =
        some ([], name, a ++ type ++ tail) := by
      rw [← hsplit, Cursor.start, h]
      simp
    rw [Cursor.next_of_splitWord hstart]
    rfl
  have hsecond : Cursor.next ⟨name, a ++ type ++ tail⟩ =
      (some type, ⟨name ++ a ++ type, tail⟩) :=
    Cursor.next_of_splitWord (Cursor.splitWord_append ha htype htype' htail)
  rw [fields?, hfirst]
  simp only [hsecond]

/-- A content without a name or without a type has no fields. -/
theorem fields?_eq_none_iff {content : List Char} :
    fields? content = none ↔ (words content).length < 2 := by
  have hstart : (Cursor.start (trim content)).ahead = trim content := rfl
  rw [← words_trim, ← hstart, fields?]
  by_cases hfirst : AllBlank (Cursor.start (trim content)).ahead
  · rw [Cursor.next_of_allBlank hfirst, hfirst.words_eq]
    simp
  · obtain ⟨name, c, hnext, hwords⟩ := Cursor.exists_next hfirst
    rw [hnext, hwords]
    by_cases hsecond : AllBlank c.ahead
    · simp [Cursor.next_of_allBlank hsecond, hsecond.words_eq]
    · obtain ⟨type, d, hnext', hwords'⟩ := Cursor.exists_next hsecond
      simp [hnext', hwords']

/-- The name is the first word of a content. -/
theorem head?_words_of_fields? {content name : List Char} {r : List Char × Bool × List Char}
    (h : fields? content = some (name, r)) : (words content).head? = some name := by
  have hstart : (Cursor.start (trim content)).ahead = trim content := rfl
  rw [← words_trim, ← hstart]
  rw [fields?] at h
  by_cases hfirst : AllBlank (Cursor.start (trim content)).ahead
  · simp [Cursor.next_of_allBlank hfirst] at h
  · obtain ⟨w, c, hnext, hwords⟩ := Cursor.exists_next hfirst
    rw [hnext] at h
    by_cases hsecond : AllBlank c.ahead
    · simp [Cursor.next_of_allBlank hsecond] at h
    · obtain ⟨type, d, hnext', -⟩ := Cursor.exists_next hsecond
      simp only [hnext', Option.some.injEq, Prod.mk.injEq] at h
      rw [hwords, h.1]
      rfl

end Tag
end RouteDoc
