import RouteDoc.Proofs.Extraction.Tables
/-! Rules and tags of the body in one table. Rules come first, each in its place, and names that
only tags have come behind them; a name has what its last tag says, and what its rule says if it has
no tag. Nothing of this shows in the tables of query and path. -/
namespace RouteDoc
open Text

namespace Entry

theorem name_ofRules (room : Nat) (rules : List (String × Value)) :
    (ofRules room rules).map name = Assoc.keys rules := by
  rw [ofRules, List.map_map, Assoc.keys]
  rfl

theorem ofRules_append (room : Nat) (rules rules' : List (String × Value)) :
    ofRules room (rules ++ rules') = ofRules room rules ++ ofRules room rules' := List.map_append

end Entry

namespace Entity
variable {room : Nat} {route : Route} {entity : Entity}

theorem bodyEntries_good (h : obstacle? room route entity = none) :
    ∀ e ∈ entity.bodyEntries room, ¬e.Malformed := by
  obtain ⟨hrules, htags⟩ := obstacle?_eq_none_iff.mp h
  intro e he
  cases List.mem_append.mp he with
  | inl he => exact unprintable?_eq_none_iff.mp hrules e he
  | inr he =>
    exact Entry.not_malformed_ofKind (fun t ht => offender?_eq_none_iff.mp htags t ht .body) e he

/-- The names of the rules, and behind them the names that only tags have. -/
theorem names_bodyEntries (h : (Assoc.keys entity.rules).Nodup) :
    ((entity.bodyEntries room).map Entry.name).eraseDups =
      Assoc.keys entity.rules ++ (((entity.tagged .body).map Entry.name).filter
        (· ∉ Assoc.keys entity.rules)).eraseDups := by
  have hrules : (Assoc.keys entity.rules).eraseDups = Assoc.keys entity.rules := by
    rw [← Assoc.keys_ofList, Assoc.ofList_of_nodup h]
  rw [bodyEntries, List.map_append, Entry.name_ofRules, List.eraseDups_append, hrules]
  simp [List.removeAll]

end Entity

/-- The table of the body, made of rules and tags by a synthesizer. -/
structure Merged (room : Nat) (s : Synthesizer) (entity : Entity)
    (m : List (String × Parameter Value)) : Prop where
  keys : Assoc.keys m = Assoc.keys entity.rules ++
    (((entity.tagged .body).map Entry.name).filter (· ∉ Assoc.keys entity.rules)).eraseDups
  nodup : (Assoc.keys m).Nodup
  named : ∀ e ∈ m, e.2.name = e.1
  tag : ∀ front e behind, entity.tagged .body = front ++ e :: behind →
    (∀ f ∈ behind, f.name ≠ e.name) →
      ∃ p, (s.after (Entry.ofRules room entity.rules ++ front)).parameter? e = some p ∧
        Assoc.get? e.name m = some p
  rule : ∀ front name r behind, entity.rules = front ++ (name, r) :: behind →
    (∀ f ∈ entity.tagged .body, f.name ≠ name) →
      ∃ p, (s.after (Entry.ofRules room front)).parameter? (.rule name (Rule.tokens room r)) = some p ∧
        Assoc.get? name m = some p

theorem merged_byName (room : Nat) (s : Synthesizer) {entity : Entity}
    (hrules : (Assoc.keys entity.rules).Nodup)
    (hgood : ∀ e ∈ entity.bodyEntries room, ¬e.Malformed) :
    Merged room s entity (byName (s.parameters (entity.bodyEntries room))) where
  keys := by rw [s.keys_byName_parameters hgood, Entity.names_bodyEntries hrules]
  nodup := nodup_byName _
  named _ he := name_of_mem_byName he
  tag := by
    intro front e behind hsplit hlast
    have hentries : entity.bodyEntries room =
        (Entry.ofRules room entity.rules ++ front) ++ e :: behind := by
      rw [Entity.bodyEntries, hsplit, List.append_assoc]
    rw [hentries] at hgood ⊢
    exact s.get?_byName_parameters hgood hlast
  rule := by
    intro front name r behind hsplit htags
    have hentries : entity.bodyEntries room = Entry.ofRules room front ++
        .rule name (Rule.tokens room r) :: (Entry.ofRules room behind ++ entity.tagged .body) := by
      rw [Entity.bodyEntries, hsplit, Entry.ofRules_append, List.append_assoc]
      rfl
    rw [hentries] at hgood ⊢
    refine s.get?_byName_parameters hgood fun f hf => ?_
    cases List.mem_append.mp hf with
    | inl hf =>
      have hmem : f.name ∈ Assoc.keys behind :=
        Entry.name_ofRules room behind ▸ List.mem_map_of_mem hf
      have hdistinct : name ∉ Assoc.keys behind := by
        rw [hsplit, Assoc.keys, List.map_append, List.map_cons] at hrules
        exact (List.nodup_cons.mp (List.nodup_append.mp hrules).2.1).1
      intro heq
      exact hdistinct (by rwa [heq] at hmem)
    | inr hf => exact htags f hf

namespace Extractor

theorem exists_extract_iff {x : Extractor} {route : Route} {entity : Entity} :
    (∃ d, (x.extract route entity).1.result = .ok d) ↔
      (∀ r ∈ entity.rules, Rule.Printable x.room r.2) ∧
      (∀ t ∈ (Comment.ofDocstring entity.docstring).tags, ∀ kind : ParamKind,
        t.name = kind.tagName → ¬t.Malformed) ∧
      ∃ v, (x.resolver (x.asked route entity)).result = .ok v := by
  have hobstacle_iff : obstacle? x.room route entity = none ↔ _ := obstacle?_eq_none_iff
  rw [← unprintable?_eq_none_iff_printable, ← offender?_eq_none_iff, ← and_assoc, ← hobstacle_iff]
  constructor
  · rintro ⟨d, hd⟩
    have hobstacle := obstacle?_of_extract hd
    refine ⟨hobstacle, ?_⟩
    cases hresolved : (x.resolver (x.asked route entity)).result with
    | ok v => exact ⟨v, rfl⟩
    | error f =>
      rw [(x.extract_of_wellFormed hobstacle).1 f hresolved] at hd
      cases hd
  · rintro ⟨hobstacle, v, hv⟩
    obtain ⟨d, hd, -⟩ := (x.extract_of_wellFormed hobstacle).2 v hv
    exact ⟨d, hd⟩

/-- There is a descriptor when the rules have texts, the tags are well formed and the resolver does not
fail. In it rules and tags of the body merge without loss, and the other two tables owe nothing to them
but the count at which samples are drawn. -/
theorem extract_merges (x : Extractor) (route : Route) (entity : Entity)
    (hrules : (Assoc.keys entity.rules).Nodup) :
    ((∃ d, (x.extract route entity).1.result = .ok d) ↔
      (∀ r ∈ entity.rules, Rule.Printable x.room r.2) ∧
      (∀ t ∈ (Comment.ofDocstring entity.docstring).tags, ∀ kind : ParamKind,
        t.name = kind.tagName → ¬t.Malformed) ∧
      ∃ v, (x.resolver (x.asked route entity)).result = .ok v) ∧
    ∀ d, (x.extract route entity).1.result = .ok d →
      Merged x.room x.synthesizer entity d.bodyParameters ∧
      (∀ kind ≠ .body,
        Assoc.keys (d.table kind) = ((entity.tagged kind).map Entry.name).eraseDups) ∧
      ∀ (x' : Extractor) (route' : Route) (entity' : Entity) (d' : Descriptor),
        x'.synthesizer.registered = x.synthesizer.registered →
        (∀ kind ≠ .body, entity'.tagged kind = entity.tagged kind) →
        (x'.extract route' entity').1.result = .ok d' →
          SameApart x x' route entity entity' d d' := by
  refine ⟨exists_extract_iff, fun d hd => ?_⟩
  have hobstacle := obstacle?_of_extract hd
  obtain ⟨hbody, hquery, hpath⟩ := extract_tables hd
  have htags := offender?_eq_none_iff.mp (obstacle?_eq_none_iff.mp hobstacle).2
  have hgood (kind : ParamKind) : ∀ e ∈ entity.tagged kind, ¬e.Malformed :=
    Entry.not_malformed_ofKind fun t ht => htags t ht kind
  refine ⟨?_, fun kind hkind => ?_, fun x' route' entity' d' hrecipes hsame hd' => ?_⟩
  · rw [hbody]
    exact merged_byName x.room x.synthesizer hrules (Entity.bodyEntries_good hobstacle)
  · cases kind with
    | path => rw [Descriptor.table, hpath, Synthesizer.keys_byName_parameters _ (hgood .path)]
    | query => rw [Descriptor.table, hquery, Synthesizer.keys_byName_parameters _ (hgood .query)]
    | body => exact absurd rfl hkind
  · exact extract_sameApart hrecipes hsame hd hd'

def storeUser : Entity where
  docstring := some ("@bodyParam email int\n@queryParam page int\n@bodyParam extra bool\n" ++
    "@bodyParam email string Yours.\n@pathParam extra int")
  rules := [("name", .text "required|string"), ("email", .text "email"), ("age", .text "integer")]

theorem storeUser_tags : (Comment.ofDocstring storeUser.docstring).tags =
    [⟨"bodyParam", "email int"⟩, ⟨"queryParam", "page int"⟩, ⟨"bodyParam", "extra bool"⟩,
      ⟨"bodyParam", "email string Yours."⟩, ⟨"pathParam", "extra int"⟩] := by
  decide +kernel

theorem extract_merges_storeUser :
    ∃ d, ((make {} Response.none).extract ⟨"/users", ["POST"], ⟨"app", "store"⟩⟩ storeUser).1.result =
        .ok d ∧
      Assoc.keys d.bodyParameters = ["name", "email", "age", "extra"] ∧
      Assoc.keys d.pathParameters = ["extra"] ∧
      Assoc.get? "email" d.bodyParameters =
        (Synthesizer.after {} (Entry.ofRules Value.usualRoom storeUser.rules ++ [.tag ⟨"bodyParam", "email int"⟩,
          .tag ⟨"bodyParam", "extra bool"⟩])).parameter? (.tag ⟨"bodyParam", "email string Yours."⟩) := by
  have hrules : (Assoc.keys storeUser.rules).Nodup := by decide
  have htags : ∀ t ∈ (Comment.ofDocstring storeUser.docstring).tags, ∀ kind : ParamKind,
      t.name = kind.tagName → ¬t.Malformed := by
    rw [← offender?_eq_none_iff, storeUser_tags]
    decide +kernel
  have hbody : storeUser.tagged .body =
      [.tag ⟨"bodyParam", "email int"⟩, .tag ⟨"bodyParam", "extra bool"⟩] ++
        .tag ⟨"bodyParam", "email string Yours."⟩ :: [] := by
    rw [Entity.tagged, storeUser_tags]
    rfl
  have hpath : storeUser.tagged .path = [.tag ⟨"pathParam", "extra int"⟩] := by
    rw [Entity.tagged, storeUser_tags]
    rfl
  have hprintable : ∀ r ∈ storeUser.rules, Rule.Printable Value.usualRoom r.2 := by
    rw [← unprintable?_eq_none_iff_printable]
    decide +kernel
  obtain ⟨hexists, hmerges⟩ := extract_merges (make {} Response.none)
    ⟨"/users", ["POST"], ⟨"app", "store"⟩⟩ storeUser hrules
  obtain ⟨d, hd⟩ := hexists.mpr ⟨hprintable, htags, .null, rfl⟩
  obtain ⟨hmerged, htables, -⟩ := hmerges d hd
  refine ⟨d, hd, ?_, ?_, ?_⟩
  · rw [hmerged.keys, hbody]
    decide +kernel
  · rw [← Descriptor.table, htables .path (by decide), hpath]
    decide +kernel
  · obtain ⟨p, hp, hget⟩ := hmerged.tag _ _ _ hbody (by simp)
    exact hget.trans hp.symm

end Extractor
end RouteDoc
