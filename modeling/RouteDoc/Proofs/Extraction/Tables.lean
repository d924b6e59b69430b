import RouteDoc.Proofs.Extraction.Failure
/-! The parameter tables of a descriptor. Each is the map of what its entries come to in the order in
which they are read, and the entries of the body are the rules and then the body's tags. So a rule
keeps its place and a tag of its name takes its value, and the entries of one table have a say in
another only through the counter from which samples are drawn. -/
namespace RouteDoc
open Text

def Entity.tagged (entity : Entity) (kind : ParamKind) : List Entry :=
  Entry.ofKind kind (Comment.ofDocstring entity.docstring).tags

def Entity.bodyEntries (room : Nat) (entity : Entity) : List Entry :=
  Entry.ofRules room entity.rules ++ entity.tagged .body

namespace Entry

def name : Entry → String
  | rule name _ => name
  | tag t => String.ofList ((words t.content.toList).headD [])

theorem name_of_draft? {e : Entry} {d : Draft} (h : e.draft? = some d) : d.name = e.name := by
  cases e with
  | rule name ts =>
    cases ts with
    | error e => cases h
    | ok ts =>
      obtain rfl := Option.some.inj h
      rfl
  | tag t =>
    rw [draft?, Tag.draft?, Option.map_eq_some_iff] at h
    obtain ⟨⟨first, rest⟩, hfields, rfl⟩ := h
    have hword := Tag.head?_words_of_fields? hfields
    rw [name, List.headD_eq_head?_getD, hword]
    rfl

theorem exists_draft {e : Entry} (h : ¬e.Malformed) : ∃ d, e.draft? = some d := by
  rw [← Option.ne_none_iff_exists', ne_eq, draft?_eq_none_iff]
  exact h

theorem not_malformed_ofKind {tags : List Tag} {kind : ParamKind}
    (h : ∀ t ∈ tags, t.name = kind.tagName → ¬t.Malformed) :
    ∀ e ∈ ofKind kind tags, ¬e.Malformed := by
  intro e he
  obtain ⟨t, ht, rfl⟩ := List.mem_map.mp he
  obtain ⟨hmem, hname⟩ := List.mem_filter.mp ht
  exact h t hmem (by simpa using hname)

end Entry

theorem keys_byName (ps : List (Parameter Value)) :
    Assoc.keys (byName ps) = (ps.map (·.name)).eraseDups := by
  rw [byName, Assoc.keys_ofList, Assoc.keys, List.map_map]
  rfl

theorem nodup_byName (ps : List (Parameter Value)) : (Assoc.keys (byName ps)).Nodup :=
  Assoc.nodup_keys_ofList _

theorem name_of_mem_byName {ps : List (Parameter Value)} {e : String × Parameter Value}
    (h : e ∈ byName ps) : e.2.name = e.1 := by
  obtain ⟨p, -, rfl⟩ := List.mem_map.mp (Assoc.mem_of_mem_ofList h)
  rfl

theorem get?_byName {p : Parameter Value} {behind : List (Parameter Value)}
    (h : ∀ q ∈ behind, q.name ≠ p.name) (front : List (Parameter Value)) :
    Assoc.get? p.name (byName (front ++ p :: behind)) = some p := by
  have hkeys : p.name ∉ Assoc.keys (behind.map fun q => (q.name, q)) := by
    simpa [Assoc.keys] using h
  rw [byName, List.map_append, List.map_cons, Assoc.get?_ofList hkeys]

/-- The map of overrides put into another is the map of one list behind the other. -/
theorem mergeParameters_byName (base overrides : List (Parameter Value)) :
    mergeParameters (byName base) (byName overrides) = byName (base ++ overrides) := by
  rw [mergeParameters, byName, byName, Assoc.insertAll_ofList, byName, List.map_append, Assoc.ofList,
    Assoc.ofList, Assoc.insertAll_append]

namespace Synthesizer

def parameter? (s : Synthesizer) (e : Entry) : Option (Parameter Value) :=
  e.draft?.map fun d => (s.fill d).1

def parameters (s : Synthesizer) (es : List Entry) : List (Parameter Value) :=
  (s.fillAll (es.filterMap Entry.draft?)).1

def after (s : Synthesizer) (es : List Entry) : Synthesizer :=
  (s.fillAll (es.filterMap Entry.draft?)).2

theorem parameters_append (s : Synthesizer) (es fs : List Entry) :
    s.parameters (es ++ fs) = s.parameters es ++ (s.after es).parameters fs := by
  rw [parameters, List.filterMap_append, fillAll_append]
  rfl

theorem after_append (s : Synthesizer) (es fs : List Entry) :
    s.after (es ++ fs) = (s.after es).after fs := by
  rw [after, List.filterMap_append, fillAll_append]
  rfl

theorem parameters_singleton (s : Synthesizer) {e : Entry} {d : Draft} (h : e.draft? = some d) :
    s.parameters [e] = [(s.fill d).1] := by
  rw [parameters, List.filterMap_cons_some h]
  rfl

theorem after_singleton (s : Synthesizer) {e : Entry} {d : Draft} (h : e.draft? = some d) :
    s.after [e] = (s.fill d).2 := by
  rw [after, List.filterMap_cons_some h]
  rfl

theorem parameters_cons {s : Synthesizer} {e : Entry} {p : Parameter Value}
    (h : s.parameter? e = some p) (es : List Entry) :
    s.parameters (e :: es) = p :: (s.after [e]).parameters es := by
  obtain ⟨d, hd, rfl⟩ := Option.map_eq_some_iff.mp h
  rw [← List.singleton_append, parameters_append, s.parameters_singleton hd]
  rfl

theorem exists_parameter (s : Synthesizer) {e : Entry} (h : ¬e.Malformed) :
    ∃ p, s.parameter? e = some p ∧ p.name = e.name := by
  obtain ⟨d, hd⟩ := Entry.exists_draft h
  refine ⟨(s.fill d).1, by rw [parameter?, hd]; rfl, ?_⟩
  rw [(s.fill_filledBy d).name, Entry.name_of_draft? hd]

theorem names_parameters (s : Synthesizer) {es : List Entry} (h : ∀ e ∈ es, ¬e.Malformed) :
    (s.parameters es).map (·.name) = es.map Entry.name := by
  induction es generalizing s with
  | nil => rfl
  | cons e es ih =>
    obtain ⟨p, hp, hname⟩ := s.exists_parameter (h e (by simp))
    rw [parameters_cons hp, List.map_cons, List.map_cons, hname,
      ih (s.after [e]) fun f hf => h f (List.mem_cons_of_mem e hf)]

theorem keys_byName_parameters (s : Synthesizer) {es : List Entry} (h : ∀ e ∈ es, ¬e.Malformed) :
    Assoc.keys (byName (s.parameters es)) = (es.map Entry.name).eraseDups := by
  rw [keys_byName, s.names_parameters h]

/-- A name has what the last entry of that name comes to after the entries in front of it. -/
theorem get?_byName_parameters (s : Synthesizer) {front : List Entry} {e : Entry}
    {behind : List Entry} (hgood : ∀ f ∈ front ++ e :: behind, ¬f.Malformed)
    (hlast : ∀ f ∈ behind, f.name ≠ e.name) :
    ∃ p, (s.after front).parameter? e = some p ∧
      Assoc.get? e.name (byName (s.parameters (front ++ e :: behind))) = some p := by
  obtain ⟨p, hp, hname⟩ := (s.after front).exists_parameter (hgood e (by simp))
  refine ⟨p, hp, ?_⟩
  have hnames := ((s.after front).after [e]).names_parameters fun f hf =>
    hgood f (List.mem_append_right front (List.mem_cons_of_mem e hf))
  have hbehind : ∀ q ∈ ((s.after front).after [e]).parameters behind, q.name ≠ p.name := by
    intro q hq
    have hmem : q.name ∈ behind.map Entry.name := hnames ▸ List.mem_map_of_mem hq
    obtain ⟨f, hf, hfq⟩ := List.mem_map.mp hmem
    rw [← hfq, hname]
    exact hlast f hf
  rw [parameters_append, parameters_cons hp, ← hname, get?_byName hbehind]

/-- Synthesizers with the same recipes and the same counter are one. -/
theorem eq_of_counter {s t : Synthesizer} (hrecipes : s.registered = t.registered)
    (hcounter : s.counter = t.counter) : s = t := by
  cases s
  cases t
  simp_all

theorem after_registered (s : Synthesizer) (es : List Entry) :
    (s.after es).registered = s.registered := s.fillAll_registered _

end Synthesizer

theorem offender?_eq_none_iff {tags : List Tag} :
    offender? tags = none ↔
      ∀ t ∈ tags, ∀ kind : ParamKind, t.name = kind.tagName → ¬t.Malformed := by
  have hkind (kind : ParamKind) :
      firstMalformed? kind tags = none ↔ ∀ t ∈ tags, t.name = kind.tagName → ¬t.Malformed := by
    simp [firstMalformed?]
  rw [offender?, Option.or_eq_none_iff, Option.or_eq_none_iff, hkind, hkind, hkind]
  constructor
  · rintro ⟨hbody, hquery, hpath⟩ t ht kind hname
    cases kind with
    | path => exact hpath t ht hname
    | query => exact hquery t ht hname
    | body => exact hbody t ht hname
  · intro h
    exact ⟨fun t ht => h t ht .body, fun t ht => h t ht .query, fun t ht => h t ht .path⟩

namespace Plan

/-- Without a malformed entry all rules and all three kinds are read to their ends. -/
theorem ofEntity_drafts {room : Nat} {route : Route} {entity : Entity}
    (h : obstacle? room route entity = none) :
    (ofEntity room route entity).rules = (Entry.ofRules room entity.rules).filterMap Entry.draft? ∧
      (ofEntity room route entity).body.drafts = (entity.tagged .body).filterMap Entry.draft? ∧
      (ofEntity room route entity).query.drafts = (entity.tagged .query).filterMap Entry.draft? ∧
      (ofEntity room route entity).path.drafts = (entity.tagged .path).filterMap Entry.draft? := by
  obtain ⟨hrules, htags⟩ := obstacle?_eq_none_iff.mp h
  have hgood := offender?_eq_none_iff.mp htags
  have hkind (kind : ParamKind) : ∀ e ∈ entity.tagged kind, ¬e.Malformed :=
    Entry.not_malformed_ofKind fun t ht => hgood t ht kind
  have herror (kind : ParamKind) : ¬(Reading.ofTags (some kind) (some route.uri)
      (Comment.ofDocstring entity.docstring).tags).error.isSome = true := by
    rw [Reading.error_isSome_iff]
    rintro ⟨e, he, hbad⟩
    exact hkind kind e he hbad
  have hdrafts (kind : ParamKind) : (Reading.ofTags (some kind) (some route.uri)
      (Comment.ofDocstring entity.docstring).tags).drafts =
        (entity.tagged kind).filterMap Entry.draft? := by
    rw [(Reading.ofTags_eq kind _ _).1]
    exact congrArg (List.filterMap Entry.draft?) (Entry.readable_of_forall (hkind kind))
  rw [ofEntity, make, Rule.drafts_eq, hrules,
    Entry.readable_of_forall (unprintable?_eq_none_iff.mp hrules)]
  simp only [Option.isSome_none, Bool.false_eq_true, if_false]
  rw [if_neg (herror .body), if_neg (herror .query)]
  exact ⟨rfl, hdrafts .body, hdrafts .query, hdrafts .path⟩

theorem table_ofEntity {room : Nat} {route : Route} {entity : Entity}
    (h : obstacle? room route entity = none) {kind : ParamKind} (hkind : kind ≠ .body) :
    (ofEntity room route entity).table kind =
      draftsByName ((entity.tagged kind).filterMap Entry.draft?) := by
  obtain ⟨-, -, hquery, hpath⟩ := ofEntity_drafts h
  cases kind with
  | path => exact congrArg draftsByName hpath
  | query => exact congrArg draftsByName hquery
  | body => exact absurd rfl hkind

end Plan

namespace Extractor

theorem extract_tables {x : Extractor} {route : Route} {entity : Entity} {d : Descriptor}
    (hd : (x.extract route entity).1.result = .ok d) :
    d.bodyParameters = byName (x.synthesizer.parameters (entity.bodyEntries x.room)) ∧
      d.queryParameters =
        byName ((x.synthesizer.after (entity.bodyEntries x.room)).parameters (entity.tagged .query)) ∧
      d.pathParameters =
        byName ((x.synthesizer.after (entity.bodyEntries x.room ++ entity.tagged .query)).parameters
          (entity.tagged .path)) := by
  have hobstacle := obstacle?_of_extract hd
  have herror : (Plan.ofEntity x.room route entity).error? = none := by
    rw [Plan.error?_ofEntity, hobstacle]
  have hlength (s : Synthesizer) (ds : List Draft) : (s.fillAll ds).1.length = ds.length :=
    (s.fillAll_fills ds).length_eq.symm
  obtain ⟨hrules, hbody, hquery, hpath⟩ := Plan.ofEntity_drafts hobstacle
  simp only [extract_eq, conclude, herror, assemble, Plan.tables, Plan.filled, Plan.drafts,
    Synthesizer.fillAll_append] at hd
  rw [Plan.deal_append _ (hlength _ _) (hlength _ _) (hlength _ _), hrules, hbody, hquery, hpath] at hd
  rw [Entity.bodyEntries, Synthesizer.parameters_append, ← mergeParameters_byName,
    Synthesizer.after_append, Synthesizer.after_append, Synthesizer.after_append]
  split at hd
  case h_1 => cases hd
  case h_2 =>
    obtain rfl := Except.ok.inj hd
    exact ⟨rfl, rfl, rfl⟩

theorem table_fills {x : Extractor} {route : Route} {entity : Entity} {d : Descriptor}
    (hd : (x.extract route entity).1.result = .ok d) {kind : ParamKind} (hkind : kind ≠ .body) :
    List.Forall₂ (Assoc.EntryRel Fills)
      (Plan.draftsByName ((entity.tagged kind).filterMap Entry.draft?)) (d.table kind) := by
  obtain ⟨-, hquery, hpath⟩ := extract_tables hd
  cases kind with
  | path =>
    rw [Descriptor.table, hpath]
    exact byName_fills (Synthesizer.fillAll_fills _ _)
  | query =>
    rw [Descriptor.table, hquery]
    exact byName_fills (Synthesizer.fillAll_fills _ _)
  | body => exact absurd rfl hkind

/-- The tables of query and path in extractions with the same tags of these kinds. Rules and tags of the
body make a difference to synthesised samples only, and none at the same count. -/
structure SameApart (x x' : Extractor) (route : Route) (entity entity' : Entity) (d d' : Descriptor) :
    Prop where
  outside : ∀ kind ≠ .body,
    List.Forall₂ (SameEntry ((Plan.ofEntity x.room route entity).Synthesised kind))
      (d.table kind) (d'.table kind)
  counter : (x'.synthesizer.after (entity'.bodyEntries x'.room)).counter =
    (x.synthesizer.after (entity.bodyEntries x.room)).counter →
      ∀ kind ≠ .body, d'.table kind = d.table kind

theorem extract_sameApart {x x' : Extractor}
    (hrecipes : x'.synthesizer.registered = x.synthesizer.registered) {route route' : Route}
    {entity entity' : Entity} (hsame : ∀ kind ≠ .body, entity'.tagged kind = entity.tagged kind)
    {d d' : Descriptor} (hd : (x.extract route entity).1.result = .ok d)
    (hd' : (x'.extract route' entity').1.result = .ok d') :
    SameApart x x' route entity entity' d d' := by
  refine ⟨fun kind hkind => ?_, fun hcounter => ?_⟩
  · have hfills := table_fills hd hkind
    have hfills' := table_fills hd' hkind
    rw [hsame kind hkind] at hfills'
    refine sameEntry_of_fills (fun e he t ht => ?_) hfills hfills'
    exact ⟨e.2, t, by rwa [Plan.table_ofEntity (obstacle?_of_extract hd) hkind], ht⟩
  · have hleft : x'.synthesizer.after (entity'.bodyEntries x'.room) =
        x.synthesizer.after (entity.bodyEntries x.room) := by
      refine Synthesizer.eq_of_counter ?_ hcounter
      rw [Synthesizer.after_registered, Synthesizer.after_registered, hrecipes]
    obtain ⟨-, hquery, hpath⟩ := extract_tables hd
    obtain ⟨-, hquery', hpath'⟩ := extract_tables hd'
    rw [← hsame .query (by decide), ← hleft] at hquery
    rw [Synthesizer.after_append, ← hsame .query (by decide), ← hsame .path (by decide), ← hleft,
      ← Synthesizer.after_append] at hpath
    intro kind hkind
    cases kind with
    | path => exact hpath'.trans hpath.symm
    | query => exact hquery'.trans hquery.symm
    | body => exact absurd rfl hkind

end Extractor
end RouteDoc
