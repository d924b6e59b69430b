import RouteDoc.Comment
import RouteDoc.Proofs.Text.Words
/-! Tag lines. Whether a line is one, its name and the words after the name can be told from the
line's words alone. -/
namespace RouteDoc.Comment
open Text

def IsName (name : List Char) : Prop :=
  ∃ c r, name = c :: r ∧ isNameStart c = true ∧ ∀ d ∈ r, isNameChar d = true

/-- Without the blanks around it, a tag line is an at sign and a name, and after the name the line
ends or a blank follows. -/
structure IsTagLine (line name rest : List Char) : Prop where
  text : trim line = '@' :: (name ++ rest)
  isName : IsName name
  rest_start : ∀ c ∈ rest.head?, isBlank c = true

def blankCodes : List Nat := [
  9, 10, 11, 12, 13, 28, 29, 30, 31, 32, 0x85, 0xA0, 0x1680, 0x2000, 0x2001, 0x2002, 0x2003, 0x2004,
  0x2005, 0x2006, 0x2007, 0x2008, 0x2009, 0x200A, 0x2028, 0x2029, 0x202F, 0x205F, 0x3000]

theorem toNat_mem_blankCodes {c : Char} (h : isBlank c = true) : c.toNat ∈ blankCodes := by
  simp only [isBlank, Bool.or_eq_true, Bool.and_eq_true, decide_eq_true_eq, beq_iff_eq] at h
  simp only [blankCodes, List.mem_cons, List.not_mem_nil, or_false]
  omega

theorem isNameChar_blankCodes : ∀ n ∈ blankCodes, isNameChar (Char.ofNat n) = false := by
  decide +kernel

/-- A class of characters without the code points of blanks has no blanks. -/
theorem isBlank_of_blankCodes {p : Char → Bool} (hp : ∀ n ∈ blankCodes, p (Char.ofNat n) = false)
    {c : Char} (h : p c = true) : isBlank c = false := by
  cases hb : isBlank c with
  | false => rfl
  | true =>
    have hn := hp c.toNat (toNat_mem_blankCodes hb)
    rw [Char.ofNat_toNat, h] at hn
    exact hn

theorem isBlank_of_isNameChar {c : Char} (h : isNameChar c = true) : isBlank c = false :=
  isBlank_of_blankCodes isNameChar_blankCodes h

theorem isNameChar_of_isNameStart {c : Char} (h : isNameStart c = true) : isNameChar c = true := by
  simp only [isNameStart, Bool.or_eq_true, beq_iff_eq] at h
  rcases h with h | rfl
  · have hc : c.toNat < 128 := by
      simp only [isAsciiLetter, Bool.or_eq_true, Bool.and_eq_true, decide_eq_true_eq,
        Char.le_def] at h
      rcases h with ⟨-, h⟩ | ⟨-, h⟩ <;> exact Nat.lt_of_le_of_lt h (by decide)
    simp [isNameChar, isWord, hc, h]
  · rfl

theorem IsName.inked {name : List Char} (h : IsName name) : ∀ c ∈ name, isBlank c = false := by
  obtain ⟨c, r, rfl, hc, hr⟩ := h
  exact List.forall_mem_cons.mpr ⟨isBlank_of_isNameChar (isNameChar_of_isNameStart hc),
    fun d hd => isBlank_of_isNameChar (hr d hd)⟩

theorem IsTagLine.tagLine? {line name rest : List Char} (h : IsTagLine line name rest) :
    tagLine? (trim line) = some (name, trimStart rest) := by
  obtain ⟨c, r, rfl, hc, hr⟩ := h.isName
  have hstop : ∀ d ∈ rest.head?, isNameChar d = false := by
    intro d hd
    cases hn : isNameChar d with
    | false => rfl
    | true => exact absurd (h.rest_start d hd) (by simp [isBlank_of_isNameChar hn])
  have htake : (r ++ rest).takeWhile isNameChar = r := by
    rw [List.takeWhile_append_of_pos hr]
    cases rest with
    | nil => simp
    | cons b t => simp [hstop b rfl]
  have hdrop : (r ++ rest).dropWhile isNameChar = rest := by
    rw [List.dropWhile_append_of_pos hr]
    cases rest with
    | nil => rfl
    | cons b t => simp [hstop b rfl]
  rw [h.text, List.cons_append, Comment.tagLine?, if_pos hc, hdrop, htake]
  cases rest with
  | nil => rfl
  | cons b t =>
    have hb := h.rest_start b rfl
    simp [hb, trimStart]

theorem isTagLine_of_tagLine? {line name t : List Char}
    (h : tagLine? (trim line) = some (name, t)) :
    ∃ rest, IsTagLine line name rest ∧ t = trimStart rest := by
  unfold tagLine? at h
  split at h
  case h_2 => simp at h
  case h_1 c r hline =>
    split at h
    case isFalse => simp at h
    case isTrue hc =>
      have hr : ∀ d ∈ r.takeWhile isNameChar, isNameChar d = true :=
        fun d hd => List.mem_takeWhile_imp hd
      have htext : trim line =
          '@' :: (c :: r.takeWhile isNameChar ++ r.dropWhile isNameChar) := by
        rw [hline, List.cons_append, List.takeWhile_append_dropWhile]
      split at h
      case h_1 hdrop =>
        obtain ⟨rfl, rfl⟩ := Prod.mk.inj (Option.some.inj h)
        exact ⟨[], ⟨by rw [htext, hdrop], ⟨c, _, rfl, hc, hr⟩, by simp⟩, rfl⟩
      case h_2 b u hdrop =>
        split at h
        case isFalse => simp at h
        case isTrue hb =>
          obtain ⟨rfl, rfl⟩ := Prod.mk.inj (Option.some.inj h)
          refine ⟨b :: u, ⟨by rw [htext, hdrop], ⟨c, _, rfl, hc, hr⟩, by simpa using hb⟩, ?_⟩
          simp [trimStart, hb]

def nameOfWord? : List Char → Option (List Char)
  | '@' :: c :: r => if isNameStart c && r.all isNameChar then some (c :: r) else none
  | _ => none

def tagWords? : List (List Char) → Option (List Char × List (List Char))
  | [] => none
  | w :: ws => (nameOfWord? w).map (·, ws)

theorem nameOfWord?_eq_some {w name : List Char} (h : nameOfWord? w = some name) :
    w = '@' :: name ∧ IsName name := by
  unfold nameOfWord? at h
  split at h
  case h_2 => simp at h
  case h_1 c r =>
    split at h
    case isFalse => simp at h
    case isTrue hc =>
      obtain rfl := Option.some.inj h
      rw [Bool.and_eq_true, List.all_eq_true] at hc
      exact ⟨rfl, c, r, rfl, hc⟩

theorem IsTagLine.tagWords? {line name rest : List Char} (h : IsTagLine line name rest) :
    tagWords? (words line) = some (name, words rest) := by
  have hink : ∀ c ∈ '@' :: name, isBlank c = false :=
    List.forall_mem_cons.mpr ⟨rfl, h.isName.inked⟩
  have hw : words line = ('@' :: name) :: words rest := by
    rw [← words_trim, h.text, ← List.cons_append, words_word hink (by simp) h.rest_start]
  obtain ⟨c, r, rfl, hc, hr⟩ := h.isName
  rw [hw, Comment.tagWords?, nameOfWord?, if_pos]
  · rfl
  · rw [Bool.and_eq_true, List.all_eq_true]
    exact ⟨hc, hr⟩

theorem isTagLine_of_tagWords? {line name : List Char} {ws : List (List Char)}
    (h : tagWords? (words line) = some (name, ws)) : ∃ rest, IsTagLine line name rest := by
  cases hw : words line with
  | nil => simp [hw, tagWords?] at h
  | cons w vs =>
    rw [hw, tagWords?, Option.map_eq_some_iff] at h
    obtain ⟨n, hn, heq⟩ := h
    obtain ⟨rfl, rfl⟩ := Prod.mk.inj heq
    obtain ⟨rfl, hstart⟩ := nameOfWord?_eq_some hn
    rw [← words_trim] at hw
    obtain ⟨t, hline, -, ht⟩ := exists_after_word (trimmed_trim line) hw
    exact ⟨t, hline, hstart, ht⟩

/-- The parts of a tag line are what its words say. -/
theorem tagWords?_words (line : List Char) :
    tagWords? (words line) = (tagLine? (trim line)).map fun t => (t.1, words t.2) := by
  cases ht : tagLine? (trim line) with
  | some t =>
    obtain ⟨name, text⟩ := t
    obtain ⟨rest, h, rfl⟩ := isTagLine_of_tagLine? ht
    rw [h.tagWords?, Option.map_some, words_trimStart]
  | none =>
    rw [Option.map_none, Option.eq_none_iff_forall_ne_some]
    rintro ⟨name, ws⟩ h
    obtain ⟨rest, hline⟩ := isTagLine_of_tagWords? h
    simp [hline.tagLine?] at ht

def PlainLine (l : List Char) : Prop := ∀ name rest, ¬IsTagLine l name rest

theorem plainLine_iff {l : List Char} : PlainLine l ↔ tagWords? (words l) = none := by
  refine ⟨fun h => ?_, fun h name rest hl => ?_⟩
  · rw [Option.eq_none_iff_forall_ne_some]
    rintro ⟨name, ws⟩ hw
    obtain ⟨rest, hl⟩ := isTagLine_of_tagWords? hw
    exact h name rest hl
  · simp [hl.tagWords?] at h

theorem plainLine_iff_tagLine? {l : List Char} : PlainLine l ↔ tagLine? (trim l) = none := by
  rw [plainLine_iff, tagWords?_words, Option.map_eq_none_iff]

instance (l : List Char) : Decidable (PlainLine l) := decidable_of_iff _ plainLine_iff_tagLine?.symm

theorem PlainLine.trim {l : List Char} (h : PlainLine l) : PlainLine (trim l) := by
  rwa [plainLine_iff, words_trim, ← plainLine_iff]

theorem tagLine?_bare {name : List Char} (hname : IsName name) :
    tagLine? (trim ('@' :: name)) = some (name, []) := by
  have hink : ∀ c ∈ '@' :: name, isBlank c = false :=
    List.forall_mem_cons.mpr ⟨rfl, hname.inked⟩
  have htrimmed : Trimmed ('@' :: name) :=
    ⟨fun c hc => hink c (List.mem_of_mem_head? hc), fun c hc => hink c (List.mem_of_getLast? hc)⟩
  have hline : IsTagLine ('@' :: name) name [] :=
    ⟨by rw [htrimmed.trim_eq, List.append_nil], hname, by simp⟩
  exact hline.tagLine?

/-- A tag line as it is written: at sign, name, space and a text without blanks at its ends. -/
theorem tagLine?_written {name text : List Char} (hname : IsName name) (htext : Trimmed text) :
    tagLine? (trim ('@' :: (name ++ ' ' :: text))) = some (name, text) := by
  by_cases ht : text = []
  · rw [ht, ← List.cons_append, trim_append_blanks (by simp [AllBlank, isBlank])]
    exact tagLine?_bare hname
  · have hline : IsTagLine ('@' :: (name ++ ' ' :: text)) name (' ' :: text) := by
      refine ⟨Trimmed.trim_eq ⟨by simp [isBlank], ?_⟩, hname, by simp [isBlank]⟩
      have hsplit : '@' :: (name ++ ' ' :: text) = '@' :: (name ++ [' ']) ++ text := by simp
      rw [hsplit]
      exact last_append htext.last fun h => absurd h ht
    rw [hline.tagLine?, trimStart_of_blank rfl, htext.trimStart_eq]

end RouteDoc.Comment
