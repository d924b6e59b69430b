import RouteDoc.Proofs.Extraction
import RouteDoc.Proofs.Parameter.TagLine
/-! The entries that an extraction reads: the rules, then the parameter tags of the body, of the query
and of the path, each kind in the order of the comment. Reading stops at the first rule that has no
text or tag that has no name and type, and the entries before it are the drafts of the extraction's
plan. -/
namespace RouteDoc
open Text

def Tag.Malformed (t : Tag) : Prop := (words t.content.toList).length < 2

instance (t : Tag) : Decidable t.Malformed :=
  inferInstanceAs (Decidable ((words t.content.toList).length < 2))

theorem Tag.draft?_eq_none_iff {t : Tag} : t.draft? = none ↔ t.Malformed := by
  rw [draft?, Option.map_eq_none_iff, fields?_eq_none_iff, Malformed]

theorem ParamKind.ofTagName?_eq_some_iff {name : String} {kind : ParamKind} :
    ofTagName? name = some kind ↔ name = kind.tagName := by
  constructor
  · intro h
    have hname := List.find?_some h
    exact (beq_iff_eq.mp hname).symm
  · rintro rfl
    cases kind <;> rfl

inductive Entry where
  | rule (name : String) (tokens : Except Raised (List String))
  | tag (t : Tag)

namespace Entry

def Malformed : Entry → Prop
  | rule _ (.error _) => True
  | rule _ (.ok _) => False
  | tag t => t.Malformed

instance : (e : Entry) → Decidable e.Malformed
  | rule _ (.error _) => inferInstanceAs (Decidable True)
  | rule _ (.ok _) => inferInstanceAs (Decidable False)
  | tag t => inferInstanceAs (Decidable t.Malformed)

def draft? : Entry → Option Draft
  | rule _ (.error _) => none
  | rule name (.ok ts) => some (Rule.draftOf name ts)
  | tag t => t.draft?

theorem draft?_eq_none_iff {e : Entry} : e.draft? = none ↔ e.Malformed := by
  cases e with
  | rule name ts => cases ts <;> simp [draft?, Malformed]
  | tag t => exact Tag.draft?_eq_none_iff

def ofKind (kind : ParamKind) (tags : List Tag) : List Entry :=
  (tags.filter (·.name = kind.tagName)).map tag

def ofRules (room : Nat) (rules : List (String × Value)) : List Entry :=
  rules.map fun r => rule r.1 (Rule.tokens room r.2)

def all (room : Nat) (tags : List Tag) (rules : List (String × Value)) : List Entry :=
  ofRules room rules ++ (ofKind .body tags ++ (ofKind .query tags ++ ofKind .path tags))

/-- The entries before the first one that is malformed. -/
def readable (es : List Entry) : List Entry := es.takeWhile fun e => !decide e.Malformed

theorem readable_cons_of_malformed {e : Entry} (h : e.Malformed) (es : List Entry) :
    readable (e :: es) = [] := List.takeWhile_cons_of_neg (by simpa using h)

theorem readable_cons {e : Entry} (h : ¬e.Malformed) (es : List Entry) :
    readable (e :: es) = e :: readable es := List.takeWhile_cons_of_pos (by simpa using h)

theorem readable_append_of_forall {es : List Entry} (h : ∀ e ∈ es, ¬e.Malformed) (fs : List Entry) :
    readable (es ++ fs) = es ++ readable fs :=
  List.takeWhile_append_of_pos fun e he => by simpa using h e he

theorem readable_of_forall {es : List Entry} (h : ∀ e ∈ es, ¬e.Malformed) : readable es = es := by
  simpa [readable] using readable_append_of_forall h []

theorem readable_append_of_exists {es : List Entry} (h : ∃ e ∈ es, e.Malformed) (fs : List Entry) :
    readable (es ++ fs) = readable es := by
  induction es with
  | nil => simp at h
  | cons e es ih =>
    rw [List.cons_append]
    by_cases he : e.Malformed
    · rw [readable_cons_of_malformed he, readable_cons_of_malformed he]
    · have hes : ∃ f ∈ es, f.Malformed := by simpa [he] using h
      rw [readable_cons he, readable_cons he, ih hes]

end Entry

def unprintable? (room : Nat) (rules : List (String × Value)) : Option Raised :=
  rules.findSome? fun r => match Rule.tokens room r.2 with
    | .error e => some e
    | .ok _ => none

theorem unprintable?_eq_none_iff {room : Nat} {rules : List (String × Value)} :
    unprintable? room rules = none ↔ ∀ e ∈ Entry.ofRules room rules, ¬e.Malformed := by
  rw [unprintable?, List.findSome?_eq_none_iff, Entry.ofRules, List.forall_mem_map]
  refine forall₂_congr fun r _ => ?_
  cases Rule.tokens room r.2 <;> simp [Entry.Malformed]

theorem exists_malformed_of_unprintable? {room : Nat} {rules : List (String × Value)} {e : Raised}
    (h : unprintable? room rules = some e) : ∃ e ∈ Entry.ofRules room rules, e.Malformed := by
  by_contra hnone
  rw [unprintable?_eq_none_iff.mpr fun e he hbad => hnone ⟨e, he, hbad⟩] at h
  cases h

/-- Rules are read up to the first that has no text. -/
theorem Rule.drafts_eq (room : Nat) (rules : List (String × Value)) :
    Rule.drafts room rules =
      ((Entry.readable (Entry.ofRules room rules)).filterMap Entry.draft?, unprintable? room rules) := by
  induction rules with
  | nil => rfl
  | cons r rules ih =>
    obtain ⟨name, rule⟩ := r
    rw [drafts, draft, unprintable?, List.findSome?_cons, Entry.ofRules, List.map_cons]
    cases htokens : tokens room rule with
    | error e =>
      rw [Entry.readable_cons_of_malformed (e := .rule name (.error e)) trivial]
      rfl
    | ok ts =>
      rw [Entry.readable_cons (e := .rule name (.ok ts)) id, ← Entry.ofRules, ← unprintable?]
      simp only [Except.map, ih]
      rfl

namespace Reading
variable (kind : ParamKind) (uri : Option String)

/-- Reading stops at the first malformed tag of the kind. -/
theorem ofTags_eq (tags : List Tag) :
    (ofTags (some kind) uri tags).drafts =
        (Entry.readable (Entry.ofKind kind tags)).filterMap Entry.draft? ∧
      (ofTags (some kind) uri tags).error =
        (tags.find? fun t => t.name = kind.tagName ∧ t.Malformed).map (⟨·, uri⟩) := by
  induction tags with
  | nil => exact ⟨rfl, rfl⟩
  | cons t ts ih =>
    obtain ⟨hdrafts, herror⟩ := ih
    by_cases hname : t.name = kind.tagName
    · have hkind : ParamKind.ofTagName? t.name = some kind := ParamKind.ofTagName?_eq_some_iff.mpr hname
      have hentries : Entry.ofKind kind (t :: ts) = .tag t :: Entry.ofKind kind ts := by
        simp [Entry.ofKind, hname]
      rw [ofTags, if_pos hkind, hentries]
      cases hdraft : t.draft? with
      | none =>
        have hbad : t.Malformed := Tag.draft?_eq_none_iff.mp hdraft
        have hread : Entry.readable (.tag t :: Entry.ofKind kind ts) = [] :=
          Entry.readable_cons_of_malformed (e := .tag t) hbad _
        rw [hread, List.find?_cons_of_pos (by simp [hname, hbad])]
        exact ⟨rfl, rfl⟩
      | some d =>
        have hgood : ¬t.Malformed := by simp [← Tag.draft?_eq_none_iff, hdraft]
        have hread : Entry.readable (.tag t :: Entry.ofKind kind ts) =
            .tag t :: Entry.readable (Entry.ofKind kind ts) := Entry.readable_cons (e := .tag t) hgood _
        have hentry : (Entry.tag t).draft? = some d := hdraft
        rw [hread, List.filterMap_cons_some hentry, ← hdrafts, List.find?_cons_of_neg (by simp [hgood]),
          ← herror]
        exact ⟨rfl, rfl⟩
    · have hkind : ParamKind.ofTagName? t.name ≠ some kind :=
        mt ParamKind.ofTagName?_eq_some_iff.mp hname
      have hentries : Entry.ofKind kind (t :: ts) = Entry.ofKind kind ts := by
        simp [Entry.ofKind, hname]
      rw [ofTags, if_neg hkind, hentries, List.find?_cons_of_neg (by simp [hname])]
      exact ⟨hdrafts, herror⟩

theorem error_isSome_iff {tags : List Tag} :
    (ofTags (some kind) uri tags).error.isSome ↔ ∃ e ∈ Entry.ofKind kind tags, e.Malformed := by
  rw [(ofTags_eq kind uri tags).2, Option.isSome_map, List.find?_isSome]
  simp [Entry.ofKind, Entry.Malformed, and_assoc]

end Reading

namespace Plan

/-- The drafts of a plan are those of the entries before the first malformed one. -/
theorem drafts_make (room : Nat) (uri : Option String) (tags : List Tag)
    (rules : List (String × Value)) :
    (make room uri tags rules).drafts =
      (Entry.readable (Entry.all room tags rules)).filterMap Entry.draft? := by
  have hdrafts (kind : ParamKind) := (Reading.ofTags_eq kind uri tags).1
  have hgood {kind : ParamKind}
      (h : ¬(Reading.ofTags (some kind) uri tags).error.isSome = true) :
      ∀ e ∈ Entry.ofKind kind tags, ¬e.Malformed := by
    simpa [Reading.error_isSome_iff] using h
  rw [Entry.all, make, Rule.drafts_eq]
  cases hrules : unprintable? room rules with
  | some e =>
    rw [Entry.readable_append_of_exists (exists_malformed_of_unprintable? hrules)]
    simp [drafts, Reading.drafts]
  | none =>
    have hprintable := unprintable?_eq_none_iff.mp hrules
    rw [Entry.readable_of_forall hprintable, Entry.readable_append_of_forall hprintable,
      List.filterMap_append]
    simp only [Option.isSome_none, Bool.false_eq_true, if_false]
    -- a kind without an error is read to its end, and the next kind is read after it
    by_cases hbody : (Reading.ofTags (some .body) uri tags).error.isSome
    · rw [if_pos hbody, Entry.readable_append_of_exists ((Reading.error_isSome_iff _ _).mp hbody),
        ← hdrafts]
      simp [drafts, Reading.drafts]
    · rw [if_neg hbody, Entry.readable_append_of_forall (hgood hbody), List.filterMap_append,
        ← Entry.readable_of_forall (hgood hbody), ← hdrafts]
      by_cases hquery : (Reading.ofTags (some .query) uri tags).error.isSome
      · rw [if_pos hquery, Entry.readable_append_of_exists ((Reading.error_isSome_iff _ _).mp hquery),
          ← hdrafts]
        simp [drafts, Reading.drafts]
      · rw [if_neg hquery, Entry.readable_append_of_forall (hgood hquery), List.filterMap_append,
          ← Entry.readable_of_forall (hgood hquery), ← hdrafts, ← hdrafts]
        simp [drafts]

end Plan
end RouteDoc
