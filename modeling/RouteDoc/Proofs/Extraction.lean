import RouteDoc.Extraction
import RouteDoc.Proofs.Assoc
import RouteDoc.Proofs.Synthesizer
/-! What an extraction owes to its synthesizer. Comment and rules alone decide the plan; the drafts
of the plan are filled, and the descriptor is concluded from the filled drafts. Two ways of filling
them lead to one error, or to descriptors that differ in drawn samples only. -/
namespace RouteDoc

/-- What an extraction reads from rules and tags: the drafts in each place, and the rule or the tag at
which it stops. What comes later is not read then. -/
structure Plan where
  rules : List Draft
  raised : Option Raised := none
  body : Reading := {}
  query : Reading := {}
  path : Reading := {}

namespace Plan

def make (room : Nat) (uri : Option String) (tags : List Tag) (rules : List (String × Value)) : Plan :=
  let read (kind : ParamKind) := Reading.ofTags (some kind) uri tags
  let (rules, raised) := Rule.drafts room rules
  if raised.isSome then { rules, raised }
  else if (read .body).error.isSome then { rules, body := read .body }
  else if (read .query).error.isSome then { rules, body := read .body, query := read .query }
  else { rules, body := read .body, query := read .query, path := read .path }

def error? (p : Plan) : Option ExtractionError :=
  (p.raised.map .rule).or ((p.body.error.or (p.query.error.or p.path.error)).map .tag)

def drafts (p : Plan) : List Draft := p.rules ++ p.body.drafts ++ p.query.drafts ++ p.path.drafts

def warnings (uri : Option String) (p : Plan) : List Warning :=
  p.body.warnings uri ++ p.query.warnings uri ++ p.path.warnings uri

def ofEntity (room : Nat) (route : Route) (entity : Entity) : Plan :=
  make room (some route.uri) (Comment.ofDocstring entity.docstring).tags entity.rules

def deal {α : Type} (p : Plan) (ps : List α) : List α × List α × List α × List α :=
  let (rules, ps) := ps.splitAt p.rules.length
  let (body, ps) := ps.splitAt p.body.drafts.length
  let (query, path) := ps.splitAt p.query.drafts.length
  (rules, body, query, path)

theorem deal_append {α : Type} (p : Plan) {rules body query path : List α}
    (hrules : rules.length = p.rules.length) (hbody : body.length = p.body.drafts.length)
    (hquery : query.length = p.query.drafts.length) :
    p.deal (rules ++ body ++ query ++ path) = (rules, body, query, path) := by
  simp only [deal, ← hrules, ← hbody, ← hquery, List.append_assoc, List.splitAt_eq,
    List.take_left, List.drop_left]

theorem deal_drafts (p : Plan) :
    p.deal p.drafts = (p.rules, p.body.drafts, p.query.drafts, p.path.drafts) :=
  p.deal_append rfl rfl rfl

theorem deal_fillAll_rules (p : Plan) (s : Synthesizer) :
    (p.deal (s.fillAll p.drafts).1).1 = (s.fillAll p.rules).1 := by
  have hlength : (s.fillAll p.rules).1.length = p.rules.length :=
    (s.fillAll_fills p.rules).length_eq.symm
  simp only [deal, drafts, List.append_assoc, Synthesizer.fillAll_append, ← hlength,
    List.splitAt_eq, List.take_left]

def draftsByName (ds : List Draft) : List (String × Draft) :=
  Assoc.ofList (ds.map fun d => (d.name, d))

def table (p : Plan) : ParamKind → List (String × Draft)
  | .path => draftsByName p.path.drafts
  | .query => draftsByName p.query.drafts
  | .body => mergeParameters (draftsByName p.rules) (draftsByName p.body.drafts)

def Synthesised (p : Plan) (kind : ParamKind) (name : String) : Prop :=
  ∃ d t, (name, d) ∈ p.table kind ∧ d.sample = .wanted t

end Plan

def Parameter.outline {α : Type} (p : Parameter α) : Parameter Unit := { p with sample := () }

def outlines {α : Type} (m : List (String × Parameter α)) : List (String × Parameter Unit) :=
  m.map fun e => (e.1, e.2.outline)

/-- A strategy is blind when samples make no difference to it. -/
def Response.Blind (s : Strategy) : Prop :=
  ∀ (route : Route) (tags : List Tag) (config : Config)
    (body body' query query' : List (String × Parameter Value)),
    outlines body = outlines body' → outlines query = outlines query' →
      s ⟨route, tags, config, body, query⟩ = s ⟨route, tags, config, body', query'⟩

/-- The usual strategies look at route and tags only. -/
theorem Response.standard_congr (room : Nat) (files : FileTree) (dir : Option Path) (route : Route)
    (tags : List Tag) (config config' : Config)
    (body body' query query' : List (String × Parameter Value)) :
    standard room files dir ⟨route, tags, config, body, query⟩ =
      standard room files dir ⟨route, tags, config', body', query'⟩ := by
  simp only [standard, chain, ask, fromTag, fromFile]

theorem Response.standard_blind (room : Nat) (files : FileTree) (dir : Option Path) :
    Blind (standard room files dir) := by
  intro route tags config body body' query query' _ _
  exact standard_congr room files dir route tags config config body body' query query'

structure SameEntry (names : String → Prop) (e f : String × Parameter Value) : Prop where
  key : e.1 = f.1
  outline : e.2.outline = f.2.outline
  sample : ¬names e.1 → e.2.sample = f.2.sample

namespace Descriptor

def table (d : Descriptor) : ParamKind → List (String × Parameter Value)
  | .path => d.pathParameters
  | .query => d.queryParameters
  | .body => d.bodyParameters

/-- Descriptors are variants when they differ in synthesised samples only. -/
structure Variants (p : Plan) (d d' : Descriptor) : Prop where
  fields : d' =
    { d with
      pathParameters := d'.pathParameters
      queryParameters := d'.queryParameters
      bodyParameters := d'.bodyParameters }
  tables : ∀ kind, List.Forall₂ (SameEntry (p.Synthesised kind)) (d.table kind) (d'.table kind)

end Descriptor

inductive SameOutcome {ε α β : Type} (R : α → β → Prop) : Except ε α → Except ε β → Prop where
  | ok {a : α} {b : β} (h : R a b) : SameOutcome R (.ok a) (.ok b)
  | error (e : ε) : SameOutcome R (.error e) (.error e)

theorem SameOutcome.mapError {ε δ α β : Type} {R S : α → β → Prop} (f : ε → δ)
    (hRS : ∀ a b, R a b → S a b) {r : Except ε α} {r' : Except ε β} (h : SameOutcome R r r') :
    SameOutcome S (r.mapError f) (r'.mapError f) := by
  cases h with
  | ok hab => exact .ok (hRS _ _ hab)
  | error e => exact .error _

namespace Plan

theorem deal_forall₂ {α β : Type} {R : α → β → Prop} (p : Plan) {as : List α} {bs : List β}
    (h : List.Forall₂ R as bs) :
    List.Forall₂ R (p.deal as).1 (p.deal bs).1 ∧ List.Forall₂ R (p.deal as).2.1 (p.deal bs).2.1 ∧
      List.Forall₂ R (p.deal as).2.2.1 (p.deal bs).2.2.1 ∧
      List.Forall₂ R (p.deal as).2.2.2 (p.deal bs).2.2.2 := by
  have hbody := List.forall₂_drop p.rules.length h
  have hquery := List.forall₂_drop p.body.drafts.length hbody
  simp only [deal, List.splitAt_eq]
  exact ⟨List.forall₂_take _ h, List.forall₂_take _ hbody, List.forall₂_take _ hquery,
    List.forall₂_drop _ hquery⟩

def filled (p : Plan) (ps : List (Parameter Value)) : ParamKind → List (String × Parameter Value)
  | .path => byName (p.deal ps).2.2.2
  | .query => byName (p.deal ps).2.2.1
  | .body => mergeParameters (byName (p.deal ps).1) (byName (p.deal ps).2.1)

def tables (p : Plan) (ps : List (Parameter Value)) : Tables :=
  ⟨p.filled ps .path, p.filled ps .query, p.filled ps .body⟩

end Plan

theorem byName_fills {ds : List Draft} {ps : List (Parameter Value)}
    (h : List.Forall₂ Fills ds ps) :
    List.Forall₂ (Assoc.EntryRel Fills) (Plan.draftsByName ds) (byName ps) := by
  have hentries : List.Forall₂ (Assoc.EntryRel Fills) (ds.map fun d => (d.name, d))
      (ps.map fun p => (p.name, p)) := by
    rw [List.forall₂_map_left_iff, List.forall₂_map_right_iff]
    exact h.imp fun _ _ hp => ⟨hp.name.symm, hp⟩
  exact Assoc.insertAll_forall₂ .nil hentries

theorem Plan.filled_fills {p : Plan} {ps : List (Parameter Value)}
    (h : List.Forall₂ Fills p.drafts ps) (kind : ParamKind) :
    List.Forall₂ (Assoc.EntryRel Fills) (p.table kind) (p.filled ps kind) := by
  obtain ⟨hrules, hbody, hquery, hpath⟩ := p.deal_forall₂ h
  rw [p.deal_drafts] at hrules hbody hquery hpath
  cases kind with
  | path => exact byName_fills hpath
  | query => exact byName_fills hquery
  | body => exact Assoc.insertAll_forall₂ (byName_fills hrules) (byName_fills hbody)

theorem outlines_of_fills {t : List (String × Draft)}
    {m : List (String × Parameter Value)} (h : List.Forall₂ (Assoc.EntryRel Fills) t m) :
    outlines m = outlines t := by
  induction h with
  | nil => rfl
  | cons hentry _ ih =>
    obtain ⟨hkey, hfill⟩ := hentry
    rw [outlines, outlines, List.map_cons, List.map_cons, hfill.fields, ← hkey, ← outlines, ih]
    rfl

theorem sameEntry_of_fills {names : String → Prop} {t : List (String × Draft)}
    {m m' : List (String × Parameter Value)}
    (hnames : ∀ e ∈ t, ∀ ty, e.2.sample = .wanted ty → names e.1)
    (h : List.Forall₂ (Assoc.EntryRel Fills) t m)
    (h' : List.Forall₂ (Assoc.EntryRel Fills) t m') :
    List.Forall₂ (SameEntry names) m m' := by
  induction h generalizing m' with
  | nil =>
    cases h'
    exact .nil
  | @cons e f t m hentry _ ih =>
    cases h' with
    | @cons _ f' _ m' hentry' hrest =>
      have htail := ih (fun e he => hnames e (List.mem_cons_of_mem _ he)) hrest
      obtain ⟨hkey, hfill⟩ := hentry
      obtain ⟨hkey', hfill'⟩ := hentry'
      refine .cons ⟨hkey.symm.trans hkey', ?_, fun hnot => ?_⟩ htail
      · rw [hfill.fields, hfill'.fields]
        rfl
      · cases hd : e.2.sample with
        | given v => rw [hfill.given v hd, hfill'.given v hd]
        | wanted ty => exact absurd (hkey ▸ hnames e (by simp) ty hd) hnot

/-- To fill the tables of a route is to fill the drafts of its plan. -/
theorem Synthesizer.tables_eq (s : Synthesizer) {room : Nat} {uri : Option String} {tags : List Tag}
    {rules : List (String × Value)} {plan : Plan} (h : Plan.make room uri tags rules = plan) :
    s.tables room uri tags rules =
      ({ result := match plan.error? with
          | some e => .error e
          | none => .ok (plan.tables (s.fillAll plan.drafts).1)
         warnings := plan.warnings uri }, (s.fillAll plan.drafts).2) := by
  have hlength (s : Synthesizer) (ds : List Draft) : (s.fillAll ds).1.length = ds.length :=
    (s.fillAll_fills ds).length_eq.symm
  have hempty : Reading.drafts {} = [] := rfl
  have hquiet : Reading.warnings {} uri = [] := rfl
  subst h
  obtain ⟨ds, raised, hrules⟩ : ∃ ds raised, Rule.drafts room rules = (ds, raised) := ⟨_, _, rfl⟩
  rw [tables, ruleTable, Plan.make, hrules]
  cases raised with
  | some e => simp [Plan.error?, Plan.warnings, Plan.drafts, hempty, hquiet]
  | none =>
    simp only [table, Option.isSome_none, Bool.false_eq_true, if_false]
    cases hbody : (Reading.ofTags (some .body) uri tags).error with
    | some e => simp [Plan.error?, Plan.warnings, Plan.drafts, hbody, hempty, hquiet, fillAll_append]
    | none =>
      simp only [Option.isSome_none, Bool.false_eq_true, if_false]
      cases hquery : (Reading.ofTags (some .query) uri tags).error with
      | some e =>
        simp [Plan.error?, Plan.warnings, Plan.drafts, hbody, hquery, hempty, hquiet, fillAll_append]
      | none =>
        simp only [Option.isSome_none, Bool.false_eq_true, if_false]
        simp only [Plan.drafts, fillAll_append, Plan.tables, Plan.filled]
        rw [Plan.deal_append _ (hlength _ _) (hlength _ _) (hlength _ _)]
        cases hpath : (Reading.ofTags (some .path) uri tags).error with
        | some e => simp [Plan.error?, Plan.warnings, hbody, hquery, hpath]
        | none => simp [Plan.error?, Plan.warnings, hbody, hquery, hpath]

namespace Extractor

def conclude (x : Extractor) (route : Route) (entity : Entity) (ps : List (Parameter Value)) :
    Outcome ExtractionError Descriptor :=
  let plan := Plan.ofEntity x.room route entity
  let warnings := plan.warnings (some route.uri)
  match plan.error? with
  | some e => { result := .error e, warnings }
  | none =>
    let o := x.assemble route entity (Comment.ofDocstring entity.docstring) (plan.tables ps)
    { o with warnings := warnings ++ o.warnings }

/-- An extraction fills the drafts of its plan and concludes. -/
theorem extract_eq (x : Extractor) (route : Route) (entity : Entity) :
    x.extract route entity =
      let filled := x.synthesizer.fillAll (Plan.ofEntity x.room route entity).drafts
      (x.conclude route entity filled.1, { x with synthesizer := filled.2 }) := by
  have hplan : Plan.make x.room (some route.uri) (Comment.ofDocstring entity.docstring).tags
      entity.rules = Plan.ofEntity x.room route entity := rfl
  rw [extract, Synthesizer.tables_eq x.synthesizer hplan]
  simp only [conclude]
  cases (Plan.ofEntity x.room route entity).error? <;> rfl

/-- A plan without an error is assembled from its filled drafts. -/
theorem extract_of_plan (x : Extractor) (route : Route) (entity : Entity) {comment : Comment}
    {plan : Plan} (hcomment : Comment.ofDocstring entity.docstring = comment)
    (hplan : Plan.make x.room (some route.uri) comment.tags entity.rules = plan)
    (herror : plan.error? = none) :
    let o := x.assemble route entity comment (plan.tables (x.synthesizer.fillAll plan.drafts).1)
    (x.extract route entity).1 =
      { o with warnings := plan.warnings (some route.uri) ++ o.warnings } := by
  subst hcomment
  have hplan' : Plan.ofEntity x.room route entity = plan := hplan
  rw [extract_eq, hplan']
  simp only [conclude, hplan', herror]

/-- A descriptor is assembled from filled parameters. -/
theorem assemble_of_conclude {x : Extractor} {route : Route} {entity : Entity}
    {ps : List (Parameter Value)} {d : Descriptor} (h : (x.conclude route entity ps).result = .ok d) :
    ∃ t, (x.assemble route entity (Comment.ofDocstring entity.docstring) t).result = .ok d := by
  rw [conclude] at h
  cases herror : (Plan.ofEntity x.room route entity).error? with
  | some e =>
    simp only [herror] at h
    cases h
  | none =>
    simp only [herror] at h
    exact ⟨_, h⟩

/-- However the drafts are filled, the conclusion is one error or one descriptor, up to synthesised
samples. -/
theorem conclude_sameOutcome {x : Extractor} (hx : Response.Blind x.resolver) {route : Route}
    {entity : Entity} {ps ps' : List (Parameter Value)}
    (h : List.Forall₂ Fills (Plan.ofEntity x.room route entity).drafts ps)
    (h' : List.Forall₂ Fills (Plan.ofEntity x.room route entity).drafts ps') :
    SameOutcome (Descriptor.Variants (Plan.ofEntity x.room route entity))
      (x.conclude route entity ps).result (x.conclude route entity ps').result := by
  set plan := Plan.ofEntity x.room route entity with hplan
  have hfills := plan.filled_fills h
  have hfills' := plan.filled_fills h'
  have houtlines (kind : ParamKind) :
      outlines (plan.filled ps kind) = outlines (plan.filled ps' kind) :=
    (outlines_of_fills (hfills kind)).trans (outlines_of_fills (hfills' kind)).symm
  have hresolved := hx route (Comment.ofDocstring entity.docstring).tags x.config _ _ _ _
    (houtlines .body) (houtlines .query)
  have htables (kind : ParamKind) : List.Forall₂ (SameEntry (plan.Synthesised kind))
      (plan.filled ps kind) (plan.filled ps' kind) :=
    sameEntry_of_fills (fun e he ty hty => ⟨e.2, ty, he, hty⟩) (hfills kind) (hfills' kind)
  simp only [conclude, ← hplan]
  cases plan.error? with
  | some e => exact .error _
  | none =>
    simp only [assemble, Plan.tables, hresolved]
    cases (x.resolver _).result with
    | error e => exact .error _
    | ok response => exact .ok ⟨rfl, fun kind => by cases kind <;> exact htables _⟩

end Extractor
end RouteDoc
