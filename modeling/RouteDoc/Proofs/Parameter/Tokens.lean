import RouteDoc.Parameter.Rule
import RouteDoc.Proofs.Distinct
import RouteDoc.Proofs.Text.Lines
import RouteDoc.Proofs.Value.Shown
/-! The tokens of a rule are a normal form: texts that neither bars nor blanks cut further, each once and in
the order in which they first came. Tokens joined by bars are read back as they are, and a list of rules
has the tokens of its items, one item after the other. Rules have tokens when they have a text. -/
namespace RouteDoc.Rule
open Text

def pieces (s : List Char) : List (List Char) := (s.splitOn '|').map trim

theorem pieces_append_bar (s t : List Char) : pieces (s ++ '|' :: t) = pieces s ++ pieces t := by
  rw [pieces, List.splitOn_append_cons_self, List.map_append, ← pieces, ← pieces]

theorem tokensOf_eq (s : List Char) : tokensOf s = (pieces s).eraseDups.filter (!·.isEmpty) := by
  rw [← eraseDups_filter, tokensOf, pieces]

theorem mem_tokensOf {s t : List Char} : t ∈ tokensOf s ↔ t ≠ [] ∧ t ∈ pieces s := by
  rw [tokensOf_eq, List.mem_filter, List.mem_eraseDups, and_comm]
  simp

theorem tokensOf_append_bar (s t : List Char) :
    tokensOf (s ++ '|' :: t) = tokensOf s ++ (tokensOf t).filter (· ∉ tokensOf s) := by
  have hseen : (tokensOf t).filter (· ∉ pieces s) = (tokensOf t).filter (· ∉ tokensOf s) := by
    refine List.filter_congr fun u hu => ?_
    have hne := (mem_tokensOf.mp hu).1
    simp [mem_tokensOf, hne]
  rw [← hseen, tokensOf_eq, pieces_append_bar, eraseDups_append_eq, List.filter_append,
    List.filter_filter, ← tokensOf_eq, tokensOf_eq t, List.filter_filter]
  simp only [Bool.and_comm]

theorem bar_not_mem_of_mem_pieces {s t : List Char} (h : t ∈ pieces s) : '|' ∉ t := by
  obtain ⟨u, hu, rfl⟩ := List.mem_map.mp h
  exact fun hbar => not_mem_of_mem_splitOn hu ((trim_sublist u).subset hbar)

/-- Tokens that a rule can be read into: none can be cut further, and none comes twice. -/
structure Normal (ts : List String) : Prop where
  ne_empty : ∀ t ∈ ts, t ≠ ""
  trimmed : ∀ t ∈ ts, Trimmed t.toList
  bar_not_mem : ∀ t ∈ ts, '|' ∉ t.toList
  nodup : ts.Nodup

/-- Lists united: to what came before, each adds what is new. -/
def union (ls : List (List String)) : List String :=
  ls.foldl (fun seen l => seen ++ l.filter (· ∉ seen)) []

theorem union_concat (ls : List (List String)) (l : List String) :
    union (ls ++ [l]) = union ls ++ l.filter (· ∉ union ls) := by
  rw [union, List.foldl_append, ← union]
  rfl

theorem mem_tokensOfText {s t : String} : t ∈ tokensOfText s ↔ t ≠ "" ∧ t.toList ∈ pieces s.toList := by
  rw [← String.toList_eq_nil_iff.ne, ← mem_tokensOf, tokensOfText, List.mem_map]
  constructor
  · rintro ⟨u, hu, rfl⟩
    rwa [String.toList_ofList]
  · exact fun h => ⟨t.toList, h, String.ofList_toList⟩

theorem normal_tokensOfText (s : String) : Normal (tokensOfText s) where
  ne_empty _ ht := (mem_tokensOfText.mp ht).1
  trimmed t ht := by
    obtain ⟨u, -, hu⟩ := List.mem_map.mp (mem_tokensOfText.mp ht).2
    exact hu ▸ trimmed_trim u
  bar_not_mem _ ht := bar_not_mem_of_mem_pieces (mem_tokensOfText.mp ht).2
  nodup := (nodup_eraseDups _).map fun _ _ h => String.ofList_injective h

/-- Tokens stand in the order in which they first came. -/
theorem pairwise_tokensOfText (s : String) :
    (tokensOfText s).Pairwise fun t u =>
      (pieces s.toList).idxOf t.toList < (pieces s.toList).idxOf u.toList := by
  rw [tokensOfText, tokensOf_eq, List.pairwise_map]
  simpa only [String.toList_ofList] using (pairwise_idxOf_eraseDups _).filter _

/-- Normal tokens joined by bars are read back. -/
theorem Normal.tokensOfText_join {ts : List String} (h : Normal ts) :
    tokensOfText ("|".intercalate ts) = ts := by
  by_cases hne : ts = []
  · subst hne
    rfl
  have hpieces : pieces ("|".intercalate ts).toList = ts.map String.toList := by
    have hbar : ∀ l ∈ ts.map String.toList, '|' ∉ l := by simpa using h.bar_not_mem
    have hsplit := List.splitOn_intercalate '|' hbar (by simpa using hne)
    rw [pieces, String.toList_intercalate]
    refine (congrArg (List.map trim) hsplit).trans ?_
    rw [List.map_map]
    exact List.map_congr_left fun t ht => (h.trimmed t ht).trim_eq
  have hnodup : (ts.map String.toList).Nodup := h.nodup.map fun _ _ h => String.toList_injective h
  have hfull : ∀ l ∈ ts.map String.toList, (!l.isEmpty) = true := by simpa using h.ne_empty
  rw [tokensOfText, tokensOf_eq, hpieces, eraseDups_of_nodup hnodup,
    List.filter_eq_self.mpr hfull, List.map_map]
  exact List.map_id'' (fun t => String.ofList_toList) ts

theorem tokensOfText_append_bar (s t : String) :
    tokensOfText (s ++ "|" ++ t) =
      tokensOfText s ++ (tokensOfText t).filter (· ∉ tokensOfText s) := by
  have hlist : (s ++ "|" ++ t).toList = s.toList ++ '|' :: t.toList := by simp
  have hseen (u : List Char) : String.ofList u ∈ tokensOfText s ↔ u ∈ tokensOf s.toList :=
    List.mem_map_of_injective fun _ _ h => String.ofList_injective h
  have hnew : (tokensOfText t).filter (· ∉ tokensOfText s) =
      ((tokensOf t.toList).filter (· ∉ tokensOf s.toList)).map String.ofList := by
    rw [tokensOfText.eq_def t, List.filter_map]
    exact congrArg _ (List.filter_congr fun u _ => by simp [hseen])
  rw [hnew]
  simp only [tokensOfText, hlist, tokensOf_append_bar, List.map_append]

theorem tokensOfText_join_append (ss us : List String) :
    tokensOfText ("|".intercalate (ss ++ us)) = tokensOfText ("|".intercalate ss) ++
      (tokensOfText ("|".intercalate us)).filter (· ∉ tokensOfText ("|".intercalate ss)) := by
  have hnil : tokensOfText "" = [] := rfl
  by_cases hss : ss = []
  · simp [hss, hnil]
  by_cases hus : us = []
  · simp [hus, hnil]
  rw [String.intercalate_append_of_ne_nil hss hus, tokensOfText_append_bar]

theorem tokensOfText_join (ss : List String) :
    tokensOfText ("|".intercalate ss) = union (ss.map tokensOfText) := by
  induction ss using List.reverseRecOn with
  | nil => rfl
  | append_singleton ss s ih =>
    rw [tokensOfText_join_append, List.map_append, List.map_singleton, union_concat, ← ih,
      String.intercalate_singleton]

variable {room : Nat}

theorem tokens_text (s : String) : tokens room (.text s) = .ok (tokensOfText s) := by
  rw [tokens, text, Value.shown]
  · rfl
  all_goals simp

theorem tokens_eq_ok_iff {rule : Value} {ts : List String} :
    tokens room rule = .ok ts ↔ ∃ s, text room rule = .ok s ∧ tokensOfText s = ts :=
  map_eq_ok_iff

theorem normal_tokens {rule : Value} {ts : List String} (h : tokens room rule = .ok ts) : Normal ts := by
  obtain ⟨s, -, rfl⟩ := tokens_eq_ok_iff.mp h
  exact normal_tokensOfText s

def Printable (room : Nat) : Value → Prop
  | .list xs | .tuple xs => ∀ x ∈ xs, x.HasText room
  | v => v.HasText room

theorem exists_text_iff {rule : Value} : (∃ s, text room rule = .ok s) ↔ Printable room rule := by
  have hitems (xs : List Value) : (∃ s, (xs.mapM (Value.shown room)).map ("|".intercalate ·) = .ok s) ↔
      ∀ x ∈ xs, x.HasText room := by
    simp only [← Value.exists_shown_iff, ← exists_mapM_eq_ok_iff]
    cases xs.mapM (Value.shown room) <;> simp [Except.map]
  cases rule with
  | list xs => exact hitems xs
  | tuple xs => exact hitems xs
  | _ => rw [text, Printable, Value.exists_shown_iff] <;> simp

theorem exists_tokens_iff {rule : Value} :
    (∃ ts, tokens room rule = .ok ts) ↔ Printable room rule := by
  rw [← exists_text_iff, tokens]
  cases text room rule <;> simp [Except.map]

theorem tokens_list (xs : List Value) :
    tokens room (.list xs) =
      (xs.mapM fun x : Value => (x.shown room).bind fun s => tokens room (.text s)).map union := by
  have hmap : (xs.mapM fun x : Value => (x.shown room).bind fun s => tokens room (.text s)) =
      (xs.mapM (Value.shown room)).map (List.map tokensOfText) := by
    induction xs with
    | nil => rfl
    | cons x xs ih =>
      rw [List.mapM_cons, List.mapM_cons, ih]
      cases x.shown room with
      | error e => rfl
      | ok s =>
        rw [Except.bind, tokens_text]
        cases xs.mapM (Value.shown room) <;> rfl
  rw [tokens, text, hmap]
  cases xs.mapM (Value.shown room) with
  | error e => rfl
  | ok ss => exact congrArg Except.ok (tokensOfText_join ss)

/-- The tokens of two lists one behind the other are those of the first and the new ones of the second. -/
theorem tokens_append (xs ys : List Value) :
    tokens room (.list (xs ++ ys)) = (tokens room (.list xs)).bind fun ts =>
      (tokens room (.list ys)).map fun us => ts ++ us.filter (· ∉ ts) := by
  rw [tokens, tokens, tokens, text, text, text, List.mapM_append]
  cases xs.mapM (Value.shown room) with
  | error e => rfl
  | ok ss =>
    cases ys.mapM (Value.shown room) with
    | error e => rfl
    | ok us => exact congrArg Except.ok (tokensOfText_join_append ss us)

/-- A rule has tokens when it has a text. They are normal, stand where they first came in the text, and are
read back from theirs; a list has the tokens of its items, of each what is new. -/
theorem tokens_normalForm (room : Nat) :
    (∀ rule, match tokens room rule with
      | .error e => ¬Printable room rule ∧ text room rule = .error e
      | .ok ts => Printable room rule ∧ Normal ts ∧
        (∃ s, text room rule = .ok s ∧ (∀ t, t ∈ ts ↔ t ≠ "" ∧ t.toList ∈ pieces s.toList) ∧
          ts.Pairwise fun t u =>
            (pieces s.toList).idxOf t.toList < (pieces s.toList).idxOf u.toList) ∧
        tokens room (.text ("|".intercalate ts)) = .ok ts) ∧
    (∀ xs, tokens room (.tuple xs) = tokens room (.list xs) ∧ tokens room (.list xs) =
      (xs.mapM fun x : Value => (x.shown room).bind fun s => tokens room (.text s)).map union) ∧
    ∀ xs ys, tokens room (.list (xs ++ ys)) = (tokens room (.list xs)).bind fun ts =>
      (tokens room (.list ys)).map fun us => ts ++ us.filter (· ∉ ts) := by
  refine ⟨fun rule => ?_, fun xs => ⟨rfl, tokens_list xs⟩, tokens_append⟩
  cases h : tokens room rule with
  | error e =>
    refine ⟨fun hprintable => ?_, map_eq_error_iff.mp h⟩
    obtain ⟨ts, hts⟩ := exists_tokens_iff.mpr hprintable
    rw [h] at hts
    cases hts
  | ok ts =>
    obtain ⟨s, hs, rfl⟩ := tokens_eq_ok_iff.mp h
    refine ⟨exists_tokens_iff.mp ⟨_, h⟩, normal_tokens h,
      ⟨s, hs, fun _ => mem_tokensOfText, pairwise_tokensOfText s⟩, ?_⟩
    rw [tokens_text, (normal_tokensOfText s).tokensOfText_join]

/-- Items that hold bars, blanks and what came before. -/
example : tokens 1 (.list [.text " required|min:1", .null, .text "min:1\t| |None", .int 7]) =
    .ok ["required", "min:1", "None", "7"] := by decide +kernel

end RouteDoc.Rule
