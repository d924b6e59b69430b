import Mathlib.Data.List.Forall2
import RouteDoc.Proofs.Text.Dedent
/-! Line feeds written in another way: with blanks in front of them, with a carriage return, or with
the indentation of the next line behind them. All of these are runs of blanks with a line feed in them,
so the words of a text stay as they are and trimming acts on the text that is left. -/
namespace RouteDoc.Text

structure PlainText (s : List Char) : Prop where
  feeds : ∀ c ∈ s, isLineEnd c = true → c = '\n'
  noTab : '\t' ∉ s

instance (s : List Char) : Decidable (PlainText s) :=
  decidable_of_iff (s.all (fun c => !isLineEnd c || c == '\n') = true ∧ '\t' ∉ s) <| by
    have hfeeds (c : Char) : (!isLineEnd c || c == '\n') = true ↔ (isLineEnd c = true → c = '\n') := by
      cases isLineEnd c <;> simp
    simp only [List.all_eq_true, hfeeds]
    exact ⟨fun h => ⟨h.1, h.2⟩, fun h => ⟨h.feeds, h.noTab⟩⟩

def withFeeds (feed s : List Char) : List Char := s.flatMap fun c => if c = '\n' then feed else [c]

def indented (k : Nat) (s : List Char) : List Char := withFeeds ('\n' :: List.replicate k ' ') s

def returned (s : List Char) : List Char := withFeeds ['\r', '\n'] s

inductive Padded : List Char → List Char → Prop
  | done (n : Nat) : Padded [] (List.replicate n ' ')
  | feed (n : Nat) {s t : List Char} (h : Padded s t) :
      Padded ('\n' :: s) (List.replicate n ' ' ++ '\n' :: t)
  | char (c : Char) {s t : List Char} (h : Padded s t) : Padded (c :: s) (c :: t)

theorem allBlank_spaces (n : Nat) : AllBlank (List.replicate n ' ') := by
  intro c hc
  rw [(List.mem_replicate.mp hc).2]
  rfl

theorem cleanLine_spaces (n : Nat) : CleanLine (List.replicate n ' ') := by
  refine ⟨fun c hc => ?_, fun h => absurd (List.mem_replicate.mp h).2 (by decide)⟩
  rw [(List.mem_replicate.mp hc).2]
  rfl

theorem PlainText.sublist {s t : List Char} (ht : PlainText t) (h : s.Sublist t) : PlainText s :=
  ⟨fun c hc => ht.feeds c (h.subset hc), fun hc => ht.noTab (h.subset hc)⟩

theorem unlines_splitOn (s : List Char) : unlines (s.splitOn '\n') = s :=
  List.intercalate_splitOn '\n'

theorem splitOn_feed (s : List Char) : ('\n' :: s).splitOn '\n' = [] :: s.splitOn '\n' := by
  rw [List.splitOn_cons_eq_if_modifyHead, if_pos (by decide)]

theorem splitOn_char {c : Char} (hc : c ≠ '\n') (s : List Char) :
    (c :: s).splitOn '\n' = (s.splitOn '\n').modifyHead (c :: ·) := by
  rw [List.splitOn_cons_eq_if_modifyHead, if_neg (by simpa using hc)]

theorem PlainText.cleanLine {s : List Char} (hs : PlainText s) :
    ∀ l ∈ s.splitOn '\n', CleanLine l := by
  intro l hl
  have hmem {c : Char} (hc : c ∈ l) : c ∈ s := by
    rw [← unlines_splitOn s]
    exact mem_unlines hl hc
  refine ⟨fun c hc => ?_, fun h => hs.noTab (hmem h)⟩
  cases hend : isLineEnd c with
  | false => rfl
  | true =>
    obtain rfl := hs.feeds c (hmem hc) hend
    exact absurd hc (not_mem_of_mem_splitOn hl)

theorem withFeeds_append (feed a s : List Char) :
    withFeeds feed (a ++ s) = withFeeds feed a ++ withFeeds feed s := List.flatMap_append

theorem withFeeds_feed (feed s : List Char) : withFeeds feed ('\n' :: s) = feed ++ withFeeds feed s := by
  rw [withFeeds, List.flatMap_cons, if_pos rfl, withFeeds]

theorem withFeeds_char (feed : List Char) {c : Char} (hc : c ≠ '\n') (s : List Char) :
    withFeeds feed (c :: s) = c :: withFeeds feed s := by
  rw [withFeeds, List.flatMap_cons, if_neg hc, withFeeds]
  rfl

theorem ne_newline_of_ink {c : Char} (hc : isBlank c = false) : c ≠ '\n' := by
  rintro rfl
  exact absurd hc (by decide)

theorem AllBlank.withFeeds {feed s : List Char} (hfeed : AllBlank feed) (hs : AllBlank s) :
    AllBlank (withFeeds feed s) := by
  intro c hc
  obtain ⟨d, hd, hcd⟩ := List.mem_flatMap.mp hc
  split at hcd
  case isTrue => exact hfeed c hcd
  case isFalse =>
    rw [List.mem_singleton.mp hcd]
    exact hs d hd

theorem Trimmed.withFeeds {s : List Char} (hs : Trimmed s) (feed : List Char) :
    Trimmed (withFeeds feed s) := by
  constructor
  · cases s with
    | nil => simp [Text.withFeeds]
    | cons c r =>
      have hc : isBlank c = false := hs.head c rfl
      rw [withFeeds_char feed (ne_newline_of_ink hc)]
      simpa using hc
  · cases List.eq_nil_or_concat' s with
    | inl h => simp [h, Text.withFeeds]
    | inr h =>
      obtain ⟨r, c, rfl⟩ := h
      have hc : isBlank c = false := hs.last c (by simp)
      rw [withFeeds_append, withFeeds_char feed (ne_newline_of_ink hc)]
      simpa [Text.withFeeds] using hc

theorem trim_withFeeds {feed : List Char} (hfeed : AllBlank feed) (s : List Char) :
    trim (withFeeds feed s) = withFeeds feed (trim s) := by
  obtain ⟨a, b, ha, hb, hs⟩ := exists_trim s
  have hmid : Trimmed (withFeeds feed (trim s)) := (trimmed_trim s).withFeeds feed
  conv_lhs => rw [hs, withFeeds_append, withFeeds_append,
    trim_append (hfeed.withFeeds ha) (hfeed.withFeeds hb) hmid]

theorem splitWords_withFeeds {feed : List Char} (hfeed : AllBlank feed) (hne : feed ≠ [])
    (s : List Char) : splitWords (withFeeds feed s) = splitWords s := by
  induction s with
  | nil => rfl
  | cons c r ih =>
    by_cases hc : c = '\n'
    · subst hc
      rw [withFeeds_feed, splitWords_blanks_append hfeed hne, splitWords_blank rfl, words_congr ih]
    · rw [withFeeds_char feed hc, splitWords_cons_congr c ih]

theorem Padded.splitWords_eq {s t : List Char} (h : Padded s t) : splitWords t = splitWords s := by
  induction h with
  | done n => exact splitWords_allBlank (allBlank_spaces n)
  | feed n h ih =>
    have hblank : AllBlank (List.replicate n ' ' ++ ['\n']) :=
      (allBlank_spaces n).append (by simp [AllBlank, isBlank])
    rw [List.append_cons, splitWords_blanks_append hblank (by simp), splitWords_blank rfl,
      words_congr ih]
  | char c h ih => exact splitWords_cons_congr c ih

/-- A mark without blanks stands at the start of a trimmed text if its first word starts with it. -/
theorem prefix_trim_iff {p : List Char} (hp : ∀ c ∈ p, isBlank c = false) {s : List Char} :
    p <+: trim s ↔ p <+: (words s).headD [] := by
  rw [trim, prefix_trimEnd_iff fun c hc => hp c (List.mem_of_getLast? hc), ← words_trimStart]
  obtain ⟨t, hst, -, ht⟩ := exists_after_splitWords (trimStart s)
  have hword : (words (trimStart s)).headD [] = (splitWords (trimStart s)).1 := by
    cases hs : trimStart s with
    | nil => rfl
    | cons c r =>
      have hc : isBlank c = false := head_trimStart (s := s) (by simp [hs])
      rw [words, splitWords_ink hc]
      rfl
  rw [hword]
  constructor
  · intro h
    rw [hst] at h
    cases t with
    | nil => simpa using h
    | cons b t =>
      refine prefix_of_prefix_separator (fun hb => ?_) h
      simpa [ht b rfl] using hp b hb
  · intro h
    rw [hst]
    exact h.trans (List.prefix_append _ t)

theorem withFeeds_of_not_mem (feed : List Char) {s : List Char} (h : '\n' ∉ s) :
    withFeeds feed s = s := by
  induction s with
  | nil => rfl
  | cons c r ih =>
    obtain ⟨hc, hr⟩ := not_or.mp (mt List.mem_cons.mpr h)
    rw [withFeeds_char feed (Ne.symm hc), ih hr]

theorem withFeeds_unlines (feed : List Char) {ls : List (List Char)} (h : ∀ l ∈ ls, '\n' ∉ l) :
    withFeeds feed (unlines ls) = feed.intercalate ls := by
  induction ls with
  | nil => rfl
  | cons l ls ih =>
    obtain ⟨hl, hls⟩ := List.forall_mem_cons.mp h
    by_cases hnone : ls = []
    · simp [hnone, unlines, withFeeds_of_not_mem feed hl]
    · rw [unlines_cons_of_ne_nil l hnone, withFeeds_append, withFeeds_feed, ih hls,
        withFeeds_of_not_mem feed hl, List.intercalate_cons_of_ne_nil hnone, List.append_assoc]

theorem indented_unlines (k : Nat) {l : List Char} {ls : List (List Char)}
    (h : ∀ m ∈ l :: ls, '\n' ∉ m) :
    indented k (unlines (l :: ls)) = unlines (l :: ls.map (List.replicate k ' ' ++ ·)) := by
  rw [indented, withFeeds_unlines _ h]
  clear h
  induction ls generalizing l with
  | nil => simp [unlines]
  | cons m ms ih =>
    have hshift : unlines ((List.replicate k ' ' ++ m) :: ms.map (List.replicate k ' ' ++ ·)) =
        List.replicate k ' ' ++ unlines (m :: ms.map (List.replicate k ' ' ++ ·)) := by
      cases ms with
      | nil => simp [unlines]
      | cons _ _ => simp [unlines_cons_cons]
    rw [List.intercalate_cons_cons, ih, List.map_cons, unlines_cons_cons, hshift]
    simp

theorem returned_unlines {ls : List (List Char)} {z : List Char} (h : ∀ l ∈ ls ++ [z], '\n' ∉ l) :
    returned (unlines (ls ++ [z])) = unlines (ls.map (· ++ ['\r']) ++ [z]) := by
  rw [returned, withFeeds_unlines _ h]
  clear h
  induction ls with
  | nil => simp [unlines]
  | cons l ls ih =>
    rw [List.cons_append, List.intercalate_cons_of_ne_nil (by simp), ih, List.map_cons,
      List.cons_append, unlines_cons_of_ne_nil _ (by simp)]
    simp

theorem Padded.map_trimEnd_splitOn {s t : List Char} (h : Padded s t) :
    (t.splitOn '\n').map trimEnd = (s.splitOn '\n').map trimEnd := by
  have hspaces (n : Nat) : trimEnd (List.replicate n ' ') = [] :=
    trimEnd_eq_nil.mpr (allBlank_spaces n)
  have hfeed (n : Nat) : '\n' ∉ List.replicate n ' ' := (cleanLine_spaces n).newline_not_mem
  induction h with
  | done n =>
    rw [List.splitOn_eq_singleton (hfeed n), List.map_singleton, hspaces]
    rfl
  | feed n h ih =>
    rw [List.splitOn_append_cons_self_of_not_mem (hfeed n), splitOn_feed, List.map_cons,
      List.map_cons, hspaces, ih]
    rfl
  | @char c s t h ih =>
    by_cases hc : c = '\n'
    · subst hc
      rw [splitOn_feed, splitOn_feed, List.map_cons, List.map_cons, ih]
    · obtain ⟨l, ls, hl⟩ := List.exists_cons_of_ne_nil (List.splitOn_ne_nil '\n' s)
      obtain ⟨m, ms, hm⟩ := List.exists_cons_of_ne_nil (List.splitOn_ne_nil '\n' t)
      rw [hl, hm, List.map_cons, List.map_cons] at ih
      obtain ⟨hhead, htail⟩ := List.cons.inj ih
      rw [splitOn_char hc, splitOn_char hc, hl, hm, List.modifyHead_cons, List.modifyHead_cons,
        List.map_cons, List.map_cons, htail, trimEnd_cons_congr c hhead]

theorem Padded.mem {s t : List Char} (h : Padded s t) {c : Char} (hc : c ∈ t) : c ∈ s ∨ c = ' ' := by
  induction h with
  | done n => exact .inr (List.mem_replicate.mp hc).2
  | feed n h ih =>
    rw [List.mem_append, List.mem_replicate, List.mem_cons] at hc
    rw [List.mem_cons]
    grind
  | char d h ih =>
    rw [List.mem_cons] at hc ⊢
    grind

theorem Padded.plainText {s t : List Char} (h : Padded s t) (hs : PlainText s) : PlainText t := by
  constructor
  · intro c hc hend
    cases h.mem hc with
    | inl hc => exact hs.feeds c hc hend
    | inr hc => exact absurd (hc ▸ hend) (by decide)
  · intro htab
    cases h.mem htab with
    | inl htab => exact hs.noTab htab
    | inr htab => exact absurd htab (by decide)

theorem lines_append_return {a : List Char} (h : OneLine a) (s : List Char) :
    lines (a ++ '\r' :: '\n' :: s) = a :: lines s := by
  induction a with
  | nil => rw [List.nil_append, lines]
  | cons c r ih =>
    obtain ⟨hc, hr⟩ := List.forall_mem_cons.mp h
    rw [List.cons_append, lines_of_ink hc, ih hr]
    rfl

/-- Carriage returns at the ends of lines are cut with the line feeds. -/
theorem lines_unlines_returns {ls : List (List Char)} (hls : ∀ l ∈ ls, OneLine l)
    {ms : List (List Char)} (h : List.Forall₂ (fun l m => m = l ∨ m = l ++ ['\r']) ls ms)
    {z : List Char} (hz : OneLine z) (hz' : z ≠ []) :
    lines (unlines (ms ++ [z])) = ls ++ [z] := by
  induction h with
  | nil => simpa [unlines] using lines_of_oneLine hz hz'
  | @cons l m ls ms hm h ih =>
    obtain ⟨hl, hls⟩ := List.forall_mem_cons.mp hls
    rw [List.cons_append, unlines_cons_of_ne_nil m (by simp)]
    cases hm with
    | inl hm => rw [hm, lines_append_newline hl, ih hls, List.cons_append]
    | inr hm =>
      rw [hm, List.append_assoc, List.singleton_append, lines_append_return hl, ih hls,
        List.cons_append]

/-- A margin is cut off a line in front of its carriage return. -/
theorem drop_return (m : Nat) (l : List Char) :
    (l ++ ['\r']).drop m = l.drop m ∨ (l ++ ['\r']).drop m = l.drop m ++ ['\r'] := by
  rw [List.drop_append]
  cases m - l.length with
  | zero => exact .inr rfl
  | succ n => exact .inl (by simp)

theorem map_trimEnd_returns (ls : List (List Char)) :
    (ls.map (· ++ ['\r'])).map trimEnd = ls.map trimEnd := by
  rw [List.map_map]
  exact List.map_congr_left fun l _ => trimEnd_append (by simp [AllBlank, isBlank]) l

/-- The first and the last line of a trimmed text have ink. -/
theorem Trimmed.unlines_ends {x last : List Char} {mid : List (List Char)}
    (h : Trimmed (unlines (x :: mid ++ [last]))) : ¬AllBlank x ∧ ¬AllBlank last := by
  constructor
  · rw [List.cons_append, unlines_cons_of_ne_nil x (by simp)] at h
    cases x with
    | nil => exact absurd (h.head '\n' rfl) (by decide)
    | cons c r =>
      have hc : isBlank c = false := h.head c rfl
      simp [allBlank_cons, hc]
  · rw [unlines_concat (by simp)] at h
    cases List.eq_nil_or_concat' last with
    | inl hlast => exact absurd (h.last '\n' (by simp [hlast])) (by decide)
    | inr hlast =>
      obtain ⟨r, c, rfl⟩ := hlast
      have hc : isBlank c = false := h.last c (by simp [List.getLast?_cons])
      intro hblank
      simpa [hc] using hblank c (by simp)

/-- Nothing but the margin is cut from lines of which the first and the last have ink. -/
theorem trimEmpty_cutMargin {x last : List Char} (hx : ¬AllBlank x) (hlast : ¬AllBlank last)
    (mid : List (List Char)) :
    trimEmpty (cutMargin (x :: mid ++ [last])) =
      (trimStart x :: mid.map (·.drop (margin (mid ++ [last])))) ++
        [last.drop (margin (mid ++ [last]))] := by
  have hstart : trimStart x ≠ [] := mt trimStart_eq_nil.mp hx
  have hend : last.drop (margin (mid ++ [last])) ≠ [] := by
    intro hnil
    have hmem : last ∈ mid ++ [last] := by simp
    have htake := allBlank_take_margin hmem
    have hsplit := List.take_append_drop (margin (mid ++ [last])) last
    rw [hnil, List.append_nil] at hsplit
    exact hlast (hsplit ▸ htake)
  rw [List.cons_append, cutMargin, List.map_append, List.map_singleton, ← List.cons_append,
    trimEmpty_eq_self (by simpa using hstart) (last_ne_nil hend _)]

theorem not_mem_returns {c : Char} (hc : c ≠ '\r') {ls : List (List Char)} {z : List Char}
    (h : ∀ l ∈ ls ++ [z], c ∉ l) : ∀ l ∈ ls.map (· ++ ['\r']) ++ [z], c ∉ l := by
  intro l hl
  cases List.mem_append.mp hl with
  | inl hl =>
    obtain ⟨k, hk, rfl⟩ := List.mem_map.mp hl
    simp [h k (List.mem_append_left _ hk), hc]
  | inr hl => exact h l (List.mem_append_right _ hl)

theorem lines_dedent_returned {s : List Char} (hs : PlainText s) (htrim : Trimmed s) :
    lines (dedent (returned s)) = lines (dedent s) := by
  have hclean := hs.cleanLine
  rw [← unlines_splitOn s] at htrim ⊢
  obtain ⟨front, last, hls⟩ : ∃ front last, s.splitOn '\n' = front ++ [last] := by
    cases List.eq_nil_or_concat' (s.splitOn '\n') with
    | inl h => exact absurd h (List.splitOn_ne_nil '\n' s)
    | inr h => exact h
  rw [hls] at hclean htrim ⊢
  have hfeed : ∀ l ∈ front ++ [last], '\n' ∉ l := fun l hl => (hclean l hl).newline_not_mem
  have htab : ∀ l ∈ front ++ [last], '\t' ∉ l := fun l hl => (hclean l hl).noTab
  rw [returned_unlines hfeed, lines_dedent_unlines hclean (by simp),
    dedent_unlines_eq (not_mem_returns (by decide) htab) (not_mem_returns (by decide) hfeed) (by simp)]
  cases front with
  | nil => exact lines_unlines_trimEmpty fun l hl => (cutMargin_clean hclean l hl).oneLine
  | cons x mid =>
    obtain ⟨hx, hlast⟩ := htrim.unlines_ends
    have hx' : ¬AllBlank (x ++ ['\r']) := fun h => hx (h.sublist (List.sublist_append_left _ _))
    have hmargin : margin (mid.map (· ++ ['\r']) ++ [last]) = margin (mid ++ [last]) := by
      apply margin_congr
      rw [List.map_append, List.map_append, map_trimEnd_returns]
    have hcut := trimEmpty_cutMargin hx hlast mid
    have hone : ∀ l ∈ trimEmpty (cutMargin (x :: mid ++ [last])), OneLine l := fun l hl =>
      (cutMargin_clean hclean l ((trimEmpty_sublist _).subset hl)).oneLine
    have hend := getLast_trimEmpty (cutMargin (x :: mid ++ [last]))
    rw [hcut] at hone hend
    rw [List.map_cons, trimEmpty_cutMargin hx' hlast, hmargin, trimStart_append_of_inked hx,
      List.map_map, hcut]
    refine lines_unlines_returns (fun l hl => hone l (List.mem_append_left _ hl)) ?_
      (hone _ (by simp)) (hend _ List.getLast?_concat)
    refine .cons (.inr rfl) (List.forall₂_map_left_iff.mpr (List.forall₂_map_right_iff.mpr ?_))
    exact List.forall₂_same.mpr fun l _ => drop_return _ l

end RouteDoc.Text
