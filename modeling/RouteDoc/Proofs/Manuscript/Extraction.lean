import RouteDoc.Proofs.Extraction
import RouteDoc.Proofs.Manuscript
/-! Extracting a route whose comment is a manuscript gives a descriptor that says what the
manuscript says: title, group, mark and every parameter with all its fields. -/
namespace RouteDoc
open Text

namespace Note

def params (kind : ParamKind) (notes : List Note) : List ParamNote :=
  (notes.filterMap param?).filter (·.kind = kind)

def drafts (kind : ParamKind) (notes : List Note) : List Draft :=
  (params kind notes).map ParamNote.draft

def reading (kind : ParamKind) (notes : List Note) : Reading where
  entries := (drafts kind notes).map fun d => (kind.tagName, d)

theorem drafts_reading (kind : ParamKind) (notes : List Note) :
    (reading kind notes).drafts = drafts kind notes := by
  simp [reading, Reading.drafts, Function.comp_def]

theorem ofTagName?_tagName (kind : ParamKind) : ParamKind.ofTagName? kind.tagName = some kind := by
  cases kind <;> decide

/-- The tags of a kind are read as the drafts of that kind, and none of them fails. -/
theorem ofTags_map_tag (kind : ParamKind) (uri : Option String) (notes : List Note) :
    Reading.ofTags (some kind) uri (notes.map tag) = reading kind notes := by
  have hgroup : ParamKind.ofTagName? "group" = none := by decide
  have hmark : ParamKind.ofTagName? "authenticated" = none := by decide
  induction notes with
  | nil => rfl
  | cons n notes ih =>
    cases n with
    | group label =>
      rw [List.map_cons, tag, Reading.ofTags, hgroup, if_neg (by simp), ih]
      rfl
    | authenticated =>
      rw [List.map_cons, tag, Reading.ofTags, hmark, if_neg (by simp), ih]
      rfl
    | param p =>
      rw [List.map_cons, tag, Reading.ofTags, ofTagName?_tagName]
      by_cases hk : p.kind = kind
      · rw [if_pos (congrArg some hk), p.draft?_content]
        simp [ih, reading, drafts, params, param?, hk]
      · rw [if_neg (by simpa using hk), ih]
        simp [reading, drafts, params, param?, hk]

theorem params_perm {notes notes' : List Note} (h : notes.Perm notes') (kind : ParamKind) :
    (params kind notes).Perm (params kind notes') :=
  (h.filterMap param?).filter _

theorem firstTag?_eq_none {name : String} (hgroup : name ≠ "group") (hmark : name ≠ "authenticated")
    (hkind : ∀ kind : ParamKind, name ≠ kind.tagName) (notes : List Note) :
    Comment.firstTag? name (notes.map tag) = none := by
  rw [Comment.firstTag?, Option.map_eq_none_iff, List.find?_eq_none]
  intro t ht
  obtain ⟨n, -, rfl⟩ := List.mem_map.mp ht
  cases n with
  | group label => simpa [tag] using hgroup.symm
  | authenticated => simpa [tag] using hmark.symm
  | param p => simpa [tag] using (hkind p.kind).symm

end Note

theorem Reading.repeated_of_nodup {uri : Option String} {seen : List String}
    {es : List (String × Draft)} (h : (es.map (·.2.name)).Nodup)
    (hseen : ∀ e ∈ es, e.2.name ∉ seen) : repeated uri seen es = [] := by
  induction es generalizing seen with
  | nil => rfl
  | cons e es ih =>
    obtain ⟨hnot, hnodup⟩ := List.nodup_cons.mp h
    rw [repeated, if_neg (hseen e (by simp))]
    refine ih hnodup fun e' he' hmem => ?_
    rcases List.mem_cons.mp hmem with heq | hold
    · exact hnot (List.mem_map.mpr ⟨e', he', heq⟩)
    · exact hseen e' (by simp [he']) hold

namespace Manuscript

theorem params_notes (m : Manuscript) (kind : ParamKind) :
    Note.params kind m.notes = m.params.filter (·.kind = kind) := by
  have hparams : (m.params.map Note.param).filterMap Note.param? = m.params := by
    rw [List.filterMap_map]
    exact List.filterMap_some
  have hmark :
      (if m.authenticated then [Note.authenticated] else []).filterMap Note.param? = [] := by
    split <;> rfl
  rw [Note.params, notes, List.filterMap_cons_none rfl, List.filterMap_append, hmark, hparams,
    List.nil_append]

variable {m : Manuscript} {notes : List Note}

theorem params_perm (h : notes.Perm m.notes) (kind : ParamKind) :
    (Note.params kind notes).Perm (m.params.filter (·.kind = kind)) :=
  m.params_notes kind ▸ Note.params_perm h kind

theorem names_nodup (h : notes.Perm m.notes) (kind : ParamKind) :
    ((Note.drafts kind notes).map (·.name)).Nodup := by
  have hnames : (Note.drafts kind notes).map (·.name) =
      ((Note.params kind notes).map (·.name)).map String.ofList := by
    simp [Note.drafts, ParamNote.draft, Function.comp_def]
  have hnodup : ((Note.params kind notes).map (·.name)).Nodup :=
    ((params_perm h kind).map _).nodup_iff.mpr (m.distinct kind)
  rw [hnames]
  exact hnodup.map fun a b hab => String.ofList_injective hab

theorem notes_ne_nil (h : notes.Perm m.notes) : notes ≠ [] := by
  rintro rfl
  simp [Manuscript.notes] at h

theorem eq_group_of_name {n : Note} (hn : n ∈ m.notes) (hname : n.tag.name = "group") :
    n = .group m.label := by
  have hkind (kind : ParamKind) : kind.tagName ≠ "group" := by cases kind <;> decide
  rw [Manuscript.notes] at hn
  rcases List.mem_cons.mp hn with rfl | hn
  · rfl
  rcases List.mem_append.mp hn with hn | hn
  · obtain rfl : n = .authenticated := by
      split at hn
      · exact List.mem_singleton.mp hn
      · exact absurd hn (List.not_mem_nil)
    exact absurd hname (by decide)
  · obtain ⟨p, -, rfl⟩ := List.mem_map.mp hn
    exact absurd hname (hkind p.kind)

theorem firstTag?_group (h : notes.Perm m.notes) :
    Comment.firstTag? "group" (notes.map Note.tag) = some (String.ofList m.label.chars) := by
  have hmem : Note.group m.label ∈ notes := h.mem_iff.mpr (by simp [Manuscript.notes])
  have hfind : (notes.map Note.tag).find? (·.name == "group") = some (Note.group m.label).tag := by
    cases hf : (notes.map Note.tag).find? (·.name == "group") with
    | none => exact absurd rfl (List.find?_eq_none.mp hf _ (List.mem_map_of_mem hmem))
    | some t =>
      obtain ⟨n, hn, rfl⟩ := List.mem_map.mp (List.mem_of_find?_eq_some hf)
      have hname : n.tag.name = "group" := by simpa using List.find?_some hf
      rw [eq_group_of_name (h.mem_iff.mp hn) hname]
  rw [Comment.firstTag?, hfind, Option.map_some]
  rfl

theorem isAuthenticated_tags (h : notes.Perm m.notes) :
    isAuthenticated (notes.map Note.tag) = m.authenticated := by
  have hgroup : ¬(lower "group" == "authenticated") = true := by decide
  have hmark : (lower "authenticated" == "authenticated") = true := by decide
  have hkind (kind : ParamKind) : ¬(lower kind.tagName == "authenticated") = true := by
    cases kind <;> decide
  rw [isAuthenticated, (h.map Note.tag).any_eq]
  cases hm : m.authenticated with
  | false => simp [Manuscript.notes, hm, Note.tag, hgroup, hkind]
  | true => simp [Manuscript.notes, hm, Note.tag, hmark]

end Manuscript
/-- An entry records a parameter when all that was written of it is there. The sample is the example
if there is one, else one that the type's recipe makes. -/
structure ParamNote.Recorded (s : Synthesizer) (n : ParamNote) (entry : String × Parameter Value) :
    Prop where
  key : entry.1 = String.ofList n.name
  fields : entry.2 =
    { name := String.ofList n.name
      type := n.type.name
      description := String.ofList n.description.chars
      required := n.required
      sample := entry.2.sample }
  inline : ∀ e ∈ n.inline, entry.2.sample = n.type.cast (String.ofList e.chars)
  drawn : n.inline = none → ∃ count, entry.2.sample = (s.recipe n.type.name).value count

theorem ParamNote.recorded_of_fills {s : Synthesizer} {n : ParamNote} {p : Parameter Value}
    (h : FilledBy s n.draft p) : n.Recorded s (p.name, p) where
  key := h.name
  fields := h.fields
  inline e he := h.given _ (by rw [draft, Option.mem_def.mp he])
  drawn hnone := h.wanted _ (by rw [draft, hnone])

namespace Manuscript
variable {m : Manuscript} {notes : List Note}

/-- Filled drafts of distinct names are their own table, with one entry for each parameter. -/
theorem byName_recorded (h : notes.Perm m.notes) {kind : ParamKind} {s : Synthesizer}
    {ps : List (Parameter Value)} (hps : List.Forall₂ (FilledBy s) (Note.drafts kind notes) ps) :
    List.Forall₂ (ParamNote.Recorded s) (Note.params kind notes) (byName ps) ∧
      (Assoc.keys (byName ps)).Nodup := by
  have hkeys : Assoc.keys (ps.map fun p => (p.name, p)) =
      (Note.drafts kind notes).map (·.name) := by
    rw [← names_of_fills (hps.imp fun _ _ hp => hp.toFills), Assoc.keys, List.map_map]
    rfl
  have hnodup : (Assoc.keys (ps.map fun p => (p.name, p))).Nodup := hkeys ▸ names_nodup h kind
  rw [byName, Assoc.ofList_of_nodup hnodup]
  refine ⟨?_, hnodup⟩
  rw [List.forall₂_map_right_iff]
  exact (List.forall₂_map_left_iff.mp hps).imp fun _ _ hp => ParamNote.recorded_of_fills hp

theorem plan_tags (h : notes.Perm m.notes) (uri : Option String) {room : Nat}
    {rules : List (String × Value)} {ds : List Draft} (hrules : Rule.drafts room rules = (ds, none)) :
    let plan := Plan.make room uri (notes.map Note.tag) rules
    plan.rules = ds ∧ plan.body.drafts = Note.drafts .body notes ∧ plan.query.drafts = Note.drafts .query notes ∧
      plan.path.drafts = Note.drafts .path notes ∧ plan.error? = none ∧ plan.warnings uri = [] := by
  have hwarnings (kind : ParamKind) : (Note.reading kind notes).warnings uri = [] := by
    refine Reading.repeated_of_nodup ?_ (by simp)
    simpa [Note.reading, Function.comp_def] using names_nodup h kind
  have hplan : Plan.make room uri (notes.map Note.tag) rules =
      { rules := ds
        body := Note.reading .body notes
        query := Note.reading .query notes
        path := Note.reading .path notes } := by
    simp only [Plan.make, hrules, Note.ofTags_map_tag]
    rfl
  rw [hplan]
  refine ⟨rfl, Note.drafts_reading .body notes, Note.drafts_reading .query notes,
    Note.drafts_reading .path notes, rfl, ?_⟩
  simp only [Plan.warnings, hwarnings]
  rfl

theorem standard_null (room : Nat) (files : FileTree) (dir : Option Path) (route : Route)
    (notes : List Note) (config : Config) (body query : List (String × Parameter Value)) :
    Response.standard room files dir ⟨route, notes.map Note.tag, config, body, query⟩ =
      { result := .ok .null } := by
  have htag : Comment.firstTag? "response" (notes.map Note.tag) = none :=
    Note.firstTag?_eq_none (by decide) (by decide) (by intro kind; cases kind <;> decide) notes
  have hfile : Comment.firstTag? "responseFile" (notes.map Note.tag) = none :=
    Note.firstTag?_eq_none (by decide) (by decide) (by intro kind; cases kind <;> decide) notes
  simp only [Response.standard, Response.chain, Response.ask, Response.fromTag, Response.fromFile,
    htag, hfile]
  rfl

theorem ruleTable_eq_ok_iff {s : Synthesizer} {room : Nat} {rules : List (String × Value)}
    {ruled : List (String × Parameter Value)} : (s.ruleTable room rules).1 = .ok ruled ↔
      ∃ ds, Rule.drafts room rules = (ds, none) ∧ byName (s.fillAll ds).1 = ruled := by
  rw [Synthesizer.ruleTable]
  generalize Rule.drafts room rules = r
  obtain ⟨ds, _ | e⟩ := r <;> simp

/-- A route whose comment is written from a manuscript has the descriptor that the manuscript asks
for: each kind's parameters in the comment's order, with flag, description and example told apart.
Rules that have texts only add parameters to the body. -/
theorem extract_text (h : notes.Perm m.notes) (config : Config) (shown read : Nat) (files : FileTree)
    (dir : Option Path) (defaultGroup : String) (s : Synthesizer) (route : Route)
    (container : Option String) {rules : List (String × Value)}
    {ruled : List (String × Parameter Value)} (hruled : (s.ruleTable shown rules).1 = .ok ruled) :
    ∃ path query body : List (String × Parameter Value),
      let x : Extractor := ⟨config, Response.standard read files dir, defaultGroup, s, shown⟩
      (x.extract route ⟨some (m.text notes), container, rules⟩).1 =
          { result := .ok
              { id := Route.id route.uri route.methods
                group := String.ofList m.label.chars
                title := String.ofList m.title.chars
                description := ""
                methods := route.methods
                uri := route.uri
                pathParameters := path
                queryParameters := query
                bodyParameters := mergeParameters ruled body
                authenticated := m.authenticated
                response := .null
                showResponse := false
                headers := applyHeaders config.headers m.authenticated }
            warnings := [] } ∧
        List.Forall₂ (ParamNote.Recorded s) (Note.params .path notes) path ∧
        List.Forall₂ (ParamNote.Recorded s) (Note.params .query notes) query ∧
        List.Forall₂ (ParamNote.Recorded s) (Note.params .body notes) body ∧
        (rules = [] → mergeParameters ruled body = body) ∧
        ∀ kind, (Note.params kind notes).Perm (m.params.filter (·.kind = kind)) := by
  have hcomment : Comment.ofDocstring (some (m.text notes)) =
      { summary := String.ofList m.title.chars, details := "", tags := notes.map Note.tag } :=
    m.parse_text (notes_ne_nil h)
  have hgroup : groupOf (some (m.text notes)) container defaultGroup =
      String.ofList m.label.chars := by
    rw [groupOf, hcomment, Comment.group?, firstTag?_group h]
    rfl
  obtain ⟨ds, hdrafts, rfl⟩ := ruleTable_eq_ok_iff.mp hruled
  obtain ⟨hrules, hbody, hquery, hpath, herror, hwarnings⟩ := plan_tags h (some route.uri) hdrafts
  generalize hplan : Plan.make shown (some route.uri) (notes.map Note.tag) rules = plan at *
  have hextract := Extractor.extract_of_plan
    ⟨config, Response.standard read files dir, defaultGroup, s, shown⟩ route
    ⟨some (m.text notes), container, rules⟩ hcomment hplan herror
  obtain ⟨-, hbodyFills, hqueryFills, hpathFills⟩ :=
    plan.deal_forall₂ (s.fillAll_filledBy plan.drafts)
  rw [plan.deal_drafts] at hbodyFills hqueryFills hpathFills
  obtain ⟨hbodyTable, hnodup⟩ := byName_recorded h (hbody ▸ hbodyFills)
  obtain ⟨hqueryTable, -⟩ := byName_recorded h (hquery ▸ hqueryFills)
  obtain ⟨hpathTable, -⟩ := byName_recorded h (hpath ▸ hpathFills)
  refine ⟨byName (plan.deal (s.fillAll plan.drafts).1).2.2.2,
    byName (plan.deal (s.fillAll plan.drafts).1).2.2.1,
    byName (plan.deal (s.fillAll plan.drafts).1).2.1, ?_, hpathTable, hqueryTable, hbodyTable, ?_,
    params_perm h⟩
  · rw [hextract, ← hrules, ← plan.deal_fillAll_rules s]
    simp only [hwarnings, Extractor.assemble, hgroup, isAuthenticated_tags h, standard_null]
    rfl
  · rintro rfl
    obtain rfl : [] = ds := (Prod.mk.inj hdrafts).1
    exact Assoc.ofList_of_nodup hnodup

def specimen : Manuscript where
  title := ⟨"List users".toList, by decide, by decide⟩
  label := ⟨"User accounts".toList, by decide, by decide⟩
  authenticated := true
  params :=
    [{ kind := .query
       name := "page".toList
       type := .integer
       required := true
       description := ⟨"required Example: of a count".toList, by decide, by decide⟩
       inline := some ⟨"7".toList, by decide, by decide⟩
       name_ne_nil := by decide
       name_inked := inked_of_all rfl
       inline_ne_nil := by decide
       unflagged := by decide
       unmarked := by decide
       inline_unmarked := by decide },
     { kind := .body
       name := "page".toList
       type := .json
       required := false
       description := ⟨[], by decide, by decide⟩
       inline := some ⟨"[1, 2]".toList, by decide, by decide⟩
       name_ne_nil := by decide
       name_inked := inked_of_all rfl
       inline_ne_nil := by decide
       unflagged := by decide
       unmarked := by decide
       inline_unmarked := by decide },
     { kind := .path
       name := "id".toList
       type := .string
       required := false
       description := ⟨[], by decide, by decide⟩
       inline := none
       name_ne_nil := by decide
       name_inked := inked_of_all rfl
       inline_ne_nil := by decide
       unflagged := by decide
       unmarked := by decide
       inline_unmarked := by decide }]
  title_ne_nil := by decide
  title_plain := by decide
  title_no_block := by decide
  distinct := by intro kind; cases kind <;> decide

theorem extract_text_specimen :
    specimen.notes.reverse.Perm specimen.notes ∧
      ∃ path query body : List (String × Parameter Value),
        ((Extractor.mk {} (Response.standard 900 ⟨[], []⟩ none) "general" {} 900).extract
            ⟨"/users", ["GET"], ⟨"app", "list"⟩⟩
            ⟨some (specimen.text specimen.notes.reverse), none, []⟩).1.result =
          .ok
            { id := Route.id "/users" ["GET"]
              group := "User accounts"
              title := "List users"
              description := ""
              methods := ["GET"]
              uri := "/users"
              pathParameters := path
              queryParameters := query
              bodyParameters := body
              authenticated := true
              response := .null
              showResponse := false
              headers := [] } ∧
        path.length = 1 ∧ body.length = 1 ∧
        query = [("page",
          { name := "page"
            type := "integer"
            description := "required Example: of a count"
            required := true
            sample := .int 7 })] := by
  have hperm : specimen.notes.reverse.Perm specimen.notes := List.reverse_perm _
  obtain ⟨path, query, body, hresult, hpath, hquery, hbody, hmerge, -⟩ :=
    extract_text hperm {} 900 900 ⟨[], []⟩ none "general" {} ⟨"/users", ["GET"], ⟨"app", "list"⟩⟩ none
      (show (Synthesizer.ruleTable {} 900 []).1 = .ok [] from rfl)
  refine ⟨hperm, path, query, body, ?_, hpath.length_eq.symm, hbody.length_eq.symm, ?_⟩
  · rw [hmerge rfl] at hresult
    exact congrArg Outcome.result hresult
  · obtain ⟨entry, rest, hentry, hnil, rfl⟩ := List.forall₂_cons_left_iff.mp hquery
    obtain rfl := List.forall₂_nil_left_iff.mp hnil
    have hsample : entry.2.sample = .int 7 := hentry.inline _ rfl
    exact congrArg (· :: []) (Prod.ext hentry.key (hsample ▸ hentry.fields))

end Manuscript
end RouteDoc
