import RouteDoc.Proofs.Extraction.Tables
/-! The table of one kind of parameter tags. It grows tag by tag: a tag of another kind leaves it as it
is, a tag of a new name comes last, and a tag of a known name takes the value over and is warned of.
What is not of the kind has no say in it, whether or not it can be read. -/
namespace RouteDoc
open Text

/-- The names that have come before, each as often as it comes again. -/
def repeats (names : List String) : List String :=
  (names.zipIdx.filter fun n => n.1 ∈ names.take n.2).map (·.1)

theorem repeats_concat (names : List String) (name : String) :
    repeats (names ++ [name]) = repeats names ++ if name ∈ names then [name] else [] := by
  have hfront : names.zipIdx.filter (fun n => n.1 ∈ (names ++ [name]).take n.2) =
      names.zipIdx.filter fun n => n.1 ∈ names.take n.2 := by
    refine List.filter_congr fun n hn => ?_
    have hlt : n.2 < names.length := List.snd_lt_of_mem_zipIdx hn
    rw [List.take_append_of_le_length (Nat.le_of_lt hlt)]
  rw [repeats, List.zipIdx_append, List.filter_append, List.map_append, hfront, ← repeats]
  split <;> simp [*]

namespace Reading
variable (kind : ParamKind) (uri : Option String)

theorem ofTags_cons_stranger {t : Tag} (h : t.name ≠ kind.tagName) (ts : List Tag) :
    ofTags (some kind) uri (t :: ts) = ofTags (some kind) uri ts := by
  rw [ofTags, if_neg (mt ParamKind.ofTagName?_eq_some_iff.mp h)]

theorem ofTags_cons_of_draft? {t : Tag} (h : t.name = kind.tagName) {d : Draft}
    (hd : t.draft? = some d) (ts : List Tag) :
    ofTags (some kind) uri (t :: ts) =
      { ofTags (some kind) uri ts with
        entries := (kind.tagName, d) :: (ofTags (some kind) uri ts).entries } := by
  rw [ofTags, if_pos (ParamKind.ofTagName?_eq_some_iff.mpr h), hd, h]

/-- Tags of other kinds might as well not be there. -/
theorem ofTags_filter (tags : List Tag) :
    ofTags (some kind) uri (tags.filter (·.name = kind.tagName)) = ofTags (some kind) uri tags := by
  induction tags with
  | nil => rfl
  | cons t ts ih =>
    by_cases h : t.name = kind.tagName
    · rw [List.filter_cons_of_pos (by simpa using h), ofTags, ofTags, ih]
    · rw [List.filter_cons_of_neg (by simpa using h), ofTags_cons_stranger kind uri h, ih]

theorem wellFormed_of_error {tags : List Tag} (h : (ofTags (some kind) uri tags).error = none) :
    ∀ t ∈ tags, t.name = kind.tagName → ¬t.Malformed := by
  rw [(ofTags_eq kind uri tags).2, Option.map_eq_none_iff, List.find?_eq_none] at h
  intro t ht hname hbad
  exact h t ht (by simp [hname, hbad])

/-- Tags behind tags that can be read are read in their turn. -/
theorem ofTags_append {front : List Tag} (h : ∀ t ∈ front, t.name = kind.tagName → ¬t.Malformed)
    (behind : List Tag) :
    ofTags (some kind) uri (front ++ behind) =
      ⟨(ofTags (some kind) uri front).entries ++ (ofTags (some kind) uri behind).entries,
        (ofTags (some kind) uri behind).error⟩ := by
  induction front with
  | nil => rfl
  | cons t ts ih =>
    have htail := ih fun u hu => h u (List.mem_cons_of_mem t hu)
    rw [List.cons_append]
    by_cases hname : t.name = kind.tagName
    · obtain ⟨d, hd⟩ := Entry.exists_draft (e := .tag t) (h t (by simp) hname)
      rw [ofTags_cons_of_draft? kind uri hname hd, ofTags_cons_of_draft? kind uri hname hd, htail]
      rfl
    · rw [ofTags_cons_stranger kind uri hname, ofTags_cons_stranger kind uri hname, htail]

/-- The warning of an entry stands behind those of the entries in front of it. -/
theorem repeated_concat (seen : List String) (es : List (String × Draft)) (tagName : String)
    (d : Draft) :
    repeated uri seen (es ++ [(tagName, d)]) = repeated uri seen es ++
      if d.name ∈ seen ∨ d.name ∈ es.map (·.2.name) then [.duplicate tagName d.name uri] else [] := by
  induction es generalizing seen with
  | nil =>
    by_cases h : d.name ∈ seen <;> simp [repeated, h]
  | cons e es ih =>
    obtain ⟨otherTag, other⟩ := e
    rw [List.cons_append, repeated, repeated]
    by_cases hother : other.name ∈ seen
    · have hsame : (d.name ∈ seen ∨ d.name ∈ ((otherTag, other) :: es).map (·.2.name)) ↔
          d.name ∈ seen ∨ d.name ∈ es.map (·.2.name) := by
        simp only [List.map_cons, List.mem_cons]
        constructor
        · rintro (h | h | h)
          · exact .inl h
          · exact .inl (h ▸ hother)
          · exact .inr h
        · exact fun h => h.imp_right .inr
      simp only [if_pos hother, ih, hsame, List.cons_append]
    · have hsame : (d.name ∈ other.name :: seen ∨ d.name ∈ es.map (·.2.name)) ↔
          d.name ∈ seen ∨ d.name ∈ ((otherTag, other) :: es).map (·.2.name) := by
        simp only [List.map_cons, List.mem_cons]
        exact or_assoc.trans or_left_comm
      simp only [if_neg hother, ih, hsame]

end Reading

def parameterNames (kind : ParamKind) (tags : List Tag) : List String :=
  (Entry.ofKind kind tags).map Entry.name

namespace Synthesizer
variable (s : Synthesizer) (kind : ParamKind) (uri : Option String)

theorem table_congr {tags tags' : List Tag}
    (h : tags'.filter (·.name = kind.tagName) = tags.filter (·.name = kind.tagName)) :
    s.table kind uri tags' = s.table kind uri tags := by
  rw [table, table, ← Reading.ofTags_filter, h, Reading.ofTags_filter]

theorem table_concat_stranger (tags : List Tag) {t : Tag} (h : t.name ≠ kind.tagName) :
    s.table kind uri (tags ++ [t]) = s.table kind uri tags :=
  table_congr s kind uri (by simp [h])

theorem table_eq_ok {tags : List Tag} {m : List (String × Parameter Value)}
    (h : (s.table kind uri tags).1.result = .ok m) :
    (Reading.ofTags (some kind) uri tags).error = none ∧
      m = byName (s.fillAll (Reading.ofTags (some kind) uri tags).drafts).1 := by
  rw [table] at h
  cases herror : (Reading.ofTags (some kind) uri tags).error with
  | none => exact ⟨rfl, by simpa [herror] using h.symm⟩
  | some e => simp [herror] at h

theorem byName_concat (ps : List (Parameter Value)) (p : Parameter Value) :
    byName (ps ++ [p]) = Assoc.insert p.name p (byName ps) := by
  rw [byName, List.map_append]
  exact Assoc.ofList_concat _ _ _

/-- A tag of the kind draws its parameter behind all others, and puts it into the table under a
warning if the name is there already. -/
theorem table_concat {tags : List Tag} {m : List (String × Parameter Value)}
    (h : (s.table kind uri tags).1.result = .ok m) {t : Tag} (ht : t.name = kind.tagName) {d : Draft}
    (hd : t.draft? = some d) :
    s.table kind uri (tags ++ [t]) =
      (⟨.ok (Assoc.insert d.name ((s.table kind uri tags).2.fill d).1 m),
        (s.table kind uri tags).1.warnings ++
          if d.name ∈ Assoc.keys m then [.duplicate kind.tagName d.name uri] else []⟩,
        ((s.table kind uri tags).2.fill d).2) := by
  obtain ⟨herror, rfl⟩ := s.table_eq_ok kind uri h
  have hread : Reading.ofTags (some kind) uri (tags ++ [t]) =
      ⟨(Reading.ofTags (some kind) uri tags).entries ++ [(kind.tagName, d)], none⟩ := by
    rw [Reading.ofTags_append kind uri (Reading.wellFormed_of_error kind uri herror),
      Reading.ofTags_cons_of_draft? kind uri ht hd]
    rfl
  have hseen : d.name ∈ (Reading.ofTags (some kind) uri tags).entries.map (·.2.name) ↔
      d.name ∈ Assoc.keys (byName (s.fillAll (Reading.ofTags (some kind) uri tags).drafts).1) := by
    rw [keys_byName, List.mem_eraseDups, names_of_fills (s.fillAll_fills _), Reading.drafts,
      List.map_map]
    rfl
  have hname : ((s.table kind uri tags).2.fill d).1.name = d.name :=
    ((s.table kind uri tags).2.fill_filledBy d).name
  have hdrafts : ((Reading.ofTags (some kind) uri tags).entries ++ [(kind.tagName, d)]).map (·.2) =
      (Reading.ofTags (some kind) uri tags).drafts ++ [d] := List.map_append
  rw [table, hread, Reading.warnings, Reading.repeated_concat, Reading.drafts, hdrafts, fillAll_append]
  simp only [List.not_mem_nil, false_or, hseen]
  rw [← hname, ← byName_concat]
  rfl

/-- The tables of a descriptor are read one behind the other: the body's behind the rules, which it
overrides, then the query's, then the path's. -/
theorem tables_of_extract {x : Extractor} {route : Route} {entity : Entity} {d : Descriptor}
    (h : (x.extract route entity).1.result = .ok d) :
    let read (s : Synthesizer) (kind : ParamKind) :=
      s.table kind (some route.uri) (Comment.ofDocstring entity.docstring).tags
    let rules := x.synthesizer.ruleTable x.room entity.rules
    ∃ base body, rules.1 = .ok base ∧ (read rules.2 .body).1.result = .ok body ∧
      d.bodyParameters = mergeParameters base body ∧
      (read (read rules.2 .body).2 .query).1.result = .ok d.queryParameters ∧
      (read (read (read rules.2 .body).2 .query).2 .path).1.result = .ok d.pathParameters := by
  intro read rules
  have hrules : x.synthesizer.ruleTable x.room entity.rules = rules := rfl
  have hread (s : Synthesizer) (kind : ParamKind) :
      s.table kind (some route.uri) (Comment.ofDocstring entity.docstring).tags = read s kind := rfl
  rw [Extractor.extract, tables] at h
  simp only [hrules, hread] at h
  clear_value rules read
  obtain ⟨_ | base, s⟩ := rules
  · cases h
  rcases hbody : read s .body with ⟨⟨_ | body, ws⟩, s₁⟩
  · simp only [hbody] at h
    cases h
  rcases hquery : read s₁ .query with ⟨⟨_ | query, ws'⟩, s₂⟩
  · simp only [hbody, hquery] at h
    cases h
  rcases hpath : read s₂ .path with ⟨⟨_ | path, ws''⟩, s₃⟩
  · simp only [hbody, hquery, hpath] at h
    cases h
  simp only [hbody, hquery, hpath, Extractor.assemble] at h ⊢
  split at h
  case h_1 => cases h
  case h_2 =>
    obtain rfl := Except.ok.inj h
    exact ⟨base, body, rfl, rfl, rfl, rfl, rfl⟩

theorem table_of_wellFormed {tags : List Tag}
    (h : ∀ t ∈ tags, t.name = kind.tagName → ¬t.Malformed) :
    s.table kind uri tags =
      (⟨.ok (byName (s.parameters (Entry.ofKind kind tags))),
        (repeats (parameterNames kind tags)).map (.duplicate kind.tagName · uri)⟩,
        s.after (Entry.ofKind kind tags)) := by
  induction tags using List.reverseRecOn with
  | nil => rfl
  | append_singleton tags t ih =>
    have hfront : ∀ u ∈ tags, u.name = kind.tagName → ¬u.Malformed := fun u hu =>
      h u (List.mem_append_left _ hu)
    by_cases ht : t.name = kind.tagName
    · obtain ⟨d, hd⟩ := Entry.exists_draft (e := .tag t) (h t (by simp) ht)
      have hentries : Entry.ofKind kind (tags ++ [t]) = Entry.ofKind kind tags ++ [.tag t] := by
        simp [Entry.ofKind, ht]
      have hnames : parameterNames kind (tags ++ [t]) = parameterNames kind tags ++ [d.name] := by
        rw [parameterNames, hentries, List.map_append, List.map_singleton, ← Entry.name_of_draft? hd]
        rfl
      have hmap : byName (s.parameters (Entry.ofKind kind (tags ++ [t]))) =
          Assoc.insert d.name ((s.after (Entry.ofKind kind tags)).fill d).1
            (byName (s.parameters (Entry.ofKind kind tags))) := by
        rw [hentries, parameters_append, parameters_singleton _ hd, byName_concat,
          ((s.after _).fill_filledBy d).name]
      have hafter : s.after (Entry.ofKind kind (tags ++ [t])) =
          ((s.after (Entry.ofKind kind tags)).fill d).2 := by
        rw [hentries, after_append, after_singleton _ hd]
      have hseen : d.name ∈ Assoc.keys (byName (s.parameters (Entry.ofKind kind tags))) ↔
          d.name ∈ parameterNames kind tags := by
        rw [s.keys_byName_parameters (Entry.not_malformed_ofKind hfront), List.mem_eraseDups]
        rfl
      rw [s.table_concat kind uri (congrArg (·.1.result) (ih hfront)) ht hd, ih hfront, hmap, hafter,
        hnames, repeats_concat, List.map_append]
      by_cases hd' : d.name ∈ parameterNames kind tags <;> simp [hseen, hd']
    · have hentries : Entry.ofKind kind (tags ++ [t]) = Entry.ofKind kind tags := by
        simp [Entry.ofKind, ht]
      rw [s.table_concat_stranger kind uri tags ht, ih hfront, parameterNames, parameterNames, hentries]

/-- A table has the names of its tags where they came first, each with what its last tag comes to after
the tags in front of it, and every tag of a name that came before is warned of. Other tags have no say
in the table, the warnings, the draws or the error. A descriptor has the tables of the three kinds, read
one behind the other. -/
theorem table_lastWins (tags : List Tag) :
    ((∀ t ∈ tags, t.name = kind.tagName → ¬t.Malformed) →
      ∃ m, (s.table kind uri tags).1 =
          ⟨.ok m, (repeats (parameterNames kind tags)).map (.duplicate kind.tagName · uri)⟩ ∧
        Assoc.keys m = (parameterNames kind tags).eraseDups ∧ (Assoc.keys m).Nodup ∧
        ∀ front t behind, tags = front ++ t :: behind → t.name = kind.tagName →
          (Entry.tag t).name ∉ parameterNames kind behind →
            ∃ p, (s.table kind uri front).2.parameter? (.tag t) = some p ∧
              Assoc.get? (Entry.tag t).name m = some p) ∧
    (∀ tags', tags'.filter (·.name = kind.tagName) = tags.filter (·.name = kind.tagName) →
      s.table kind uri tags' = s.table kind uri tags) ∧
    ∀ (x : Extractor) (route : Route) (entity : Entity) (d : Descriptor),
      (x.extract route entity).1.result = .ok d →
      let read (s : Synthesizer) (kind : ParamKind) :=
        s.table kind (some route.uri) (Comment.ofDocstring entity.docstring).tags
      let rules := x.synthesizer.ruleTable x.room entity.rules
      ∃ base body, rules.1 = .ok base ∧ (read rules.2 .body).1.result = .ok body ∧
        d.bodyParameters = mergeParameters base body ∧
        (read (read rules.2 .body).2 .query).1.result = .ok d.queryParameters ∧
        (read (read (read rules.2 .body).2 .query).2 .path).1.result = .ok d.pathParameters := by
  refine ⟨fun h => ⟨_, congrArg (·.1) (s.table_of_wellFormed kind uri h),
    s.keys_byName_parameters (Entry.not_malformed_ofKind h), nodup_byName _, ?_⟩,
    fun tags' => s.table_congr kind uri, fun _ _ _ _ => tables_of_extract⟩
  rintro front t behind rfl ht hlast
  have hentries : Entry.ofKind kind (front ++ t :: behind) =
      Entry.ofKind kind front ++ .tag t :: Entry.ofKind kind behind := by
    simp [Entry.ofKind, ht]
  rw [s.table_of_wellFormed kind uri fun u hu => h u (List.mem_append_left _ hu), hentries]
  refine s.get?_byName_parameters (hentries ▸ Entry.not_malformed_ofKind h) fun f hf hname => ?_
  exact hlast (hname ▸ List.mem_map_of_mem hf)

def mixedTags : List Tag :=
  [⟨"queryParam", "sort string"⟩, ⟨"bodyParam", "lonely"⟩, ⟨"queryParam", "page integer"⟩,
    ⟨"group", "Users"⟩, ⟨"queryParam", "sort integer Example: 7"⟩]

theorem table_mixedTags :
    (∃ m, (table {} .query (some "/u") mixedTags).1 =
        ⟨.ok m, [.duplicate "queryParam" "sort" (some "/u")]⟩ ∧
      Assoc.keys m = ["sort", "page"] ∧
      ∃ p, (table {} .query (some "/u") (mixedTags.take 4)).2.parameter?
          (.tag ⟨"queryParam", "sort integer Example: 7"⟩) = some p ∧
        Assoc.get? "sort" m = some p) ∧
      table {} .query (some "/u") (mixedTags.filter (·.name = "queryParam")) =
        table {} .query (some "/u") mixedTags := by
  obtain ⟨hgood, hcongr, -⟩ := table_lastWins {} .query (some "/u") mixedTags
  obtain ⟨m, htable, hkeys, -, hlast⟩ := hgood (by decide)
  refine ⟨⟨m, htable, hkeys, ?_⟩, hcongr _ (by decide)⟩
  exact hlast (mixedTags.take 4) _ [] rfl rfl (by decide)

end Synthesizer

end RouteDoc
