import RouteDoc.Proofs.Text.Blank
/-! The words of a line: the runs of its ink. Blanks around a line do not change them, and together
they hold all of its ink. -/
namespace RouteDoc.Text

def consWord (w : List Char) (ws : List (List Char)) : List (List Char) :=
  if w.isEmpty then ws else w :: ws

@[simp] theorem consWord_nil (ws : List (List Char)) : consWord [] ws = ws := rfl

@[simp] theorem consWord_cons (c : Char) (w : List Char) (ws : List (List Char)) :
    consWord (c :: w) ws = (c :: w) :: ws := rfl

def splitWords : List Char → List Char × List (List Char)
  | [] => ([], [])
  | c :: r =>
    let (w, ws) := splitWords r
    if isBlank c then ([], consWord w ws) else (c :: w, ws)

def words (l : List Char) : List (List Char) := consWord (splitWords l).1 (splitWords l).2

theorem splitWords_blank {c : Char} (hc : isBlank c = true) (r : List Char) :
    splitWords (c :: r) = ([], words r) := by
  simp [splitWords, hc, words]

theorem splitWords_ink {c : Char} (hc : isBlank c = false) (r : List Char) :
    splitWords (c :: r) = (c :: (splitWords r).1, (splitWords r).2) := by
  simp [splitWords, hc]

@[simp] theorem words_nil : words [] = [] := rfl

theorem words_blank {c : Char} (hc : isBlank c = true) (r : List Char) :
    words (c :: r) = words r := by
  rw [words, splitWords_blank hc, consWord_nil]

theorem words_append_blank {a : List Char} (ha : AllBlank a) (s : List Char) :
    words (a ++ s) = words s := by
  induction a with
  | nil => rfl
  | cons c r ih =>
    rw [List.cons_append, words_blank (ha c (by simp)), ih (allBlank_cons.mp ha).2]

theorem splitWords_blanks_append {a : List Char} (ha : AllBlank a) (hne : a ≠ []) (s : List Char) :
    splitWords (a ++ s) = ([], words s) := by
  obtain ⟨c, r, rfl⟩ := List.exists_cons_of_ne_nil hne
  obtain ⟨hc, hr⟩ := allBlank_cons.mp ha
  rw [List.cons_append, splitWords_blank hc, words_append_blank hr]

theorem splitWords_allBlank {b : List Char} (hb : AllBlank b) : splitWords b = ([], []) := by
  cases b with
  | nil => rfl
  | cons c r => simpa using splitWords_blanks_append hb (List.cons_ne_nil c r) []

theorem splitWords_cons_congr (c : Char) {s t : List Char} (h : splitWords s = splitWords t) :
    splitWords (c :: s) = splitWords (c :: t) := by
  simp only [splitWords, h]

theorem words_congr {s t : List Char} (h : splitWords s = splitWords t) : words s = words t := by
  rw [words, words, h]

theorem AllBlank.words_eq {s : List Char} (h : AllBlank s) : words s = [] := by
  simpa using words_append_blank h []

theorem consWord_append (w : List Char) (ws vs : List (List Char)) :
    consWord w (ws ++ vs) = consWord w ws ++ vs := by
  cases w <;> rfl

/-- A blank or the end cuts a line between words. -/
theorem splitWords_append {t : List Char} (ht : ∀ c ∈ t.head?, isBlank c = true) (s : List Char) :
    splitWords (s ++ t) = ((splitWords s).1, (splitWords s).2 ++ words t) := by
  induction s with
  | nil =>
    cases t with
    | nil => rfl
    | cons b r => rw [List.nil_append, splitWords_blank (ht b rfl), words_blank (ht b rfl)]; rfl
  | cons c r ih =>
    rw [List.cons_append]
    cases hc : isBlank c with
    | true => rw [splitWords_blank hc, splitWords_blank hc, words, ih, consWord_append, ← words]
    | false => rw [splitWords_ink hc, splitWords_ink hc, ih]

theorem words_append {t : List Char} (ht : ∀ c ∈ t.head?, isBlank c = true) (s : List Char) :
    words (s ++ t) = words s ++ words t := by
  rw [words, splitWords_append ht, consWord_append, ← words]

theorem splitWords_of_inked {w : List Char} (hw : ∀ c ∈ w, isBlank c = false) :
    splitWords w = (w, []) := by
  induction w with
  | nil => rfl
  | cons c r ih =>
    rw [splitWords_ink (hw c (by simp)), ih fun d hd => hw d (List.mem_cons_of_mem c hd)]

theorem words_word {w : List Char} (hw : ∀ c ∈ w, isBlank c = false) (hne : w ≠ []) {s : List Char}
    (hs : ∀ c ∈ s.head?, isBlank c = true) : words (w ++ s) = w :: words s := by
  obtain ⟨c, r, rfl⟩ := List.exists_cons_of_ne_nil hne
  rw [words_append hs, words, splitWords_of_inked hw]
  rfl

theorem splitWords_inked (s : List Char) : ∀ c ∈ (splitWords s).1, isBlank c = false := by
  induction s with
  | nil => simp [splitWords]
  | cons c r ih =>
    cases hc : isBlank c with
    | true => simp [splitWords_blank hc]
    | false =>
      rw [splitWords_ink hc]
      exact List.forall_mem_cons.mpr ⟨hc, ih⟩

theorem exists_after_splitWords (s : List Char) :
    ∃ t, s = (splitWords s).1 ++ t ∧ (splitWords s).2 = words t ∧
      ∀ c ∈ t.head?, isBlank c = true := by
  induction s with
  | nil => exact ⟨[], rfl, rfl, by simp⟩
  | cons c r ih =>
    cases hc : isBlank c with
    | true =>
      rw [splitWords_blank hc]
      exact ⟨c :: r, rfl, (words_blank hc r).symm, by simpa using hc⟩
    | false =>
      rw [splitWords_ink hc]
      obtain ⟨t, hr, hw, ht⟩ := ih
      exact ⟨t, congrArg (c :: ·) hr, hw, ht⟩

theorem exists_after_word {s w : List Char} {ws : List (List Char)} (hs : Trimmed s)
    (hw : words s = w :: ws) :
    ∃ t, s = w ++ t ∧ ws = words t ∧ ∀ c ∈ t.head?, isBlank c = true := by
  obtain ⟨t, hst, hrest, ht⟩ := exists_after_splitWords s
  cases s with
  | nil => simp at hw
  | cons c r =>
    rw [words, splitWords_ink (hs.head c rfl), consWord_cons] at hw
    rw [splitWords_ink (hs.head c rfl)] at hst hrest
    obtain ⟨rfl, rfl⟩ := List.cons.inj hw
    exact ⟨t, hst, hrest, ht⟩

theorem words_append_allBlank {b : List Char} (hb : AllBlank b) (s : List Char) :
    words (s ++ b) = words s := by
  rw [words_append fun c hc => hb c (List.mem_of_mem_head? hc), hb.words_eq, List.append_nil]

@[simp] theorem words_trimStart (s : List Char) : words (trimStart s) = words s := by
  obtain ⟨a, ha, hs⟩ := exists_trimStart s
  conv_rhs => rw [hs, words_append_blank ha]

@[simp] theorem words_trimEnd (s : List Char) : words (trimEnd s) = words s := by
  obtain ⟨b, hb, hs⟩ := exists_trimEnd s
  conv_rhs => rw [hs, words_append_allBlank hb]

@[simp] theorem words_trim (s : List Char) : words (trim s) = words s := by
  rw [trim, words_trimEnd, words_trimStart]

theorem exists_first_word {s : List Char} (hs : ¬AllBlank s) :
    ∃ a w t, s = a ++ w ++ t ∧ AllBlank a ∧ (∀ c ∈ w, isBlank c = false) ∧ w ≠ [] ∧
      (∀ c ∈ t.head?, isBlank c = true) ∧ words s = w :: words t := by
  obtain ⟨a, ha, hsa⟩ := exists_trimStart s
  cases hr : trimStart s with
  | nil => exact absurd (trimStart_eq_nil.mp hr) hs
  | cons c r =>
    have hc : isBlank c = false := head_trimStart (s := s) (by simp [hr])
    obtain ⟨t, hst, hrest, ht⟩ := exists_after_splitWords (c :: r)
    have hne : (splitWords (c :: r)).1 ≠ [] := by simp [splitWords_ink hc]
    refine ⟨a, _, t, ?_, ha, splitWords_inked (c :: r), hne, ht, ?_⟩
    · rw [List.append_assoc, ← hst, ← hr, ← hsa]
    · rw [← words_trimStart, hr, words, hrest, consWord, if_neg (by simpa using hne)]

theorem flatten_consWord (w : List Char) (ws : List (List Char)) :
    (consWord w ws).flatten = w ++ ws.flatten := by
  cases w <;> simp

theorem flatten_words (s : List Char) : (words s).flatten = ink s := by
  rw [words, flatten_consWord]
  induction s with
  | nil => rfl
  | cons c r ih =>
    rw [ink_cons]
    cases hc : isBlank c with
    | true => rw [splitWords_blank hc, List.nil_append, words, flatten_consWord, ih]; rfl
    | false => rw [splitWords_ink hc, List.cons_append, ih]; rfl

theorem words_eq_nil_iff {s : List Char} : words s = [] ↔ AllBlank s := by
  refine ⟨fun h => ?_, AllBlank.words_eq⟩
  have hi : ink s = [] := by rw [← flatten_words, h]; rfl
  intro c hc
  simpa using List.filter_eq_nil_iff.mp hi c hc

def consLine? (ws : List (List Char)) (ls : List (List (List Char))) : List (List (List Char)) :=
  if ws.isEmpty then ls else ws :: ls

@[simp] theorem consLine?_nil (ls : List (List (List Char))) : consLine? [] ls = ls := rfl

theorem consLine?_append (ws : List (List Char)) (ls ms : List (List (List Char))) :
    consLine? ws (ls ++ ms) = consLine? ws ls ++ ms := by
  cases ws <;> rfl

def wordsOfLines : List (List Char) → List (List (List Char))
  | [] => []
  | l :: ls => consLine? (words l) (wordsOfLines ls)

end RouteDoc.Text
