import RouteDoc.Proofs.Confidentiality
import RouteDoc.Proofs.Parameter.Table
import RouteDoc.Proofs.Response.Status
/-! A chain asks its strategies in order, up to the first that fails or has a response that is not empty;
what stands behind that one has no say. So a descriptor never shows an empty response, and where a
response is written in the comment neither files nor tags that name files matter. -/
namespace RouteDoc
open Text

namespace Response

inductive NoResponse : Value → Prop
  | null : NoResponse .null
  | false : NoResponse (.bool false)
  | zero : NoResponse (.int 0)
  | floatZero {x : Binary64} (h : x.isZero = true) : NoResponse (.float x)
  | noText : NoResponse (.text "")
  | zeroText : NoResponse (.text "0")
  | noItems : NoResponse (.list [])
  | noMembers : NoResponse (.tuple [])
  | noEntries : NoResponse (.mapping [])

theorem isEmpty_iff {v : Value} : isEmpty v = true ↔ NoResponse v := by
  constructor
  · intro h
    cases v with
    | null => exact .null
    | bool b =>
      cases b with
      | false => exact .false
      | true => cases h
    | int n =>
      have hn : n = 0 := by simpa [isEmpty, Value.holds] using h
      exact hn ▸ .zero
    | float x => exact .floatZero (by simpa [isEmpty, Value.holds] using h)
    | text s =>
      have hs : s = "" ∨ s = "0" := by simpa [isEmpty] using h
      cases hs with
      | inl hs => exact hs ▸ .noText
      | inr hs => exact hs ▸ .zeroText
    | list items =>
      have hnil : items = [] := by simpa [isEmpty, Value.holds] using h
      exact hnil ▸ .noItems
    | tuple items =>
      have hnil : items = [] := by simpa [isEmpty, Value.holds] using h
      exact hnil ▸ .noMembers
    | mapping entries =>
      have hnil : entries = [] := by simpa [isEmpty, Value.holds] using h
      exact hnil ▸ .noEntries
    | set members => cases h
    | bytes data => cases h
    | moment m => cases h
    | object shown => cases h
  · intro h
    cases h with
    | floatZero h => simp [isEmpty, Value.holds, h]
    | _ => rfl

/-- A strategy passes a query on when its response is empty. -/
def Passes (s : Strategy) (q : Query) : Prop := ∃ v, (s q).result = .ok v ∧ NoResponse v

theorem ask_cons_of_passes {s : Strategy} {q : Query} (h : Passes s q) (ss : List Strategy) :
    ask q (s :: ss) =
      ((ask q ss).1 + 1, { (ask q ss).2 with warnings := (s q).warnings ++ (ask q ss).2.warnings }) := by
  obtain ⟨v, hv, hempty⟩ := h
  simp only [ask, hv, isEmpty_iff.mpr hempty, if_true]

theorem ask_cons_of_stops {s : Strategy} {q : Query} (h : ¬Passes s q) (ss : List Strategy) :
    ask q (s :: ss) = (1, s q) := by
  cases hresult : (s q).result with
  | error e => simp only [ask, hresult]
  | ok v =>
    have hfull : ¬isEmpty v = true := fun hempty => h ⟨v, hresult, isEmpty_iff.mp hempty⟩
    simp only [ask, hresult, if_neg hfull]

theorem ask_of_passes {ss : List Strategy} {q : Query} (h : ∀ s ∈ ss, Passes s q) :
    ask q ss = (ss.length, ⟨.ok .null, ss.flatMap fun s => (s q).warnings⟩) := by
  induction ss with
  | nil => rfl
  | cons s ss ih =>
    rw [ask_cons_of_passes (h s (by simp)), ih fun t ht => h t (List.mem_cons_of_mem s ht)]
    rfl

theorem ask_of_stops {front : List Strategy} {s : Strategy} {q : Query}
    (hfront : ∀ t ∈ front, Passes t q) (hs : ¬Passes s q) (behind : List Strategy) :
    ask q (front ++ s :: behind) =
      (front.length + 1, ⟨(s q).result, (front ++ [s]).flatMap fun t => (t q).warnings⟩) := by
  induction front with
  | nil =>
    rw [List.nil_append, ask_cons_of_stops hs]
    simp
  | cons t front ih =>
    rw [List.cons_append, ask_cons_of_passes (hfront t (by simp)),
      ih fun u hu => hfront u (List.mem_cons_of_mem t hu)]
    rfl

theorem exists_stop {ss : List Strategy} {q : Query} (h : ¬∀ s ∈ ss, Passes s q) :
    ∃ front s behind, ss = front ++ s :: behind ∧ (∀ t ∈ front, Passes t q) ∧ ¬Passes s q := by
  induction ss with
  | nil => simp at h
  | cons t ss ih =>
    by_cases ht : Passes t q
    · have hss : ¬∀ s ∈ ss, Passes s q := fun hss => h (List.forall_mem_cons.mpr ⟨ht, hss⟩)
      obtain ⟨front, s, behind, rfl, hfront, hs⟩ := ih hss
      exact ⟨t :: front, s, behind, rfl, List.forall_mem_cons.mpr ⟨ht, hfront⟩, hs⟩
    · exact ⟨[], t, ss, rfl, by simp, ht⟩

/-- What a chain answers is null or no empty response. -/
theorem not_noResponse_of_chain {ss : List Strategy} {q : Query} {v : Value}
    (h : (chain ss q).result = .ok v) : v = .null ∨ ¬NoResponse v := by
  by_cases hpass : ∀ s ∈ ss, Passes s q
  · rw [chain, ask_of_passes hpass] at h
    exact .inl (Except.ok.inj h).symm
  · obtain ⟨front, s, behind, rfl, hfront, hs⟩ := exists_stop hpass
    rw [chain, ask_of_stops hfront hs] at h
    exact .inr fun hempty => hs ⟨v, h, hempty⟩

/-- A response in the comment is the answer to every query with that response. -/
theorem standard_of_tag {room : Nat} {q r : Query} (h : ¬Passes (fromTag room) q)
    (htag : Comment.firstTag? "response" r.tags = Comment.firstTag? "response" q.tags)
    (files : FileTree) (dir : Option Path) : standard room files dir r = fromTag room q := by
  have hsame : fromTag room r = fromTag room q := by rw [fromTag, fromTag, htag]
  have hstops : ¬Passes (fromTag room) r := by rwa [Passes, hsame]
  rw [standard, chain, ask_cons_of_stops hstops, hsame]

end Response

theorem Extractor.response_of_conclude {x : Extractor} {route : Route} {entity : Entity}
    {ps : List (Parameter Value)} {d : Descriptor} (h : (x.conclude route entity ps).result = .ok d) :
    ∃ q, (x.resolver q).result = .ok d.response ∧
      d.showResponse = !Response.isEmpty d.response := by
  obtain ⟨t, h⟩ := assemble_of_conclude h
  simp only [assemble] at h
  split at h
  case h_1 => cases h
  case h_2 response hresponse =>
    cases h
    exact ⟨_, hresponse, rfl⟩

/-- With a chain, a response is shown exactly when there is one. -/
theorem Extractor.showResponse_of_chain {x : Extractor} {ss : List Response.Strategy}
    (hx : x.resolver = Response.chain ss) {route : Route} {entity : Entity} {d : Descriptor}
    (hd : (x.extract route entity).1.result = .ok d) :
    (d.showResponse = true ↔ d.response ≠ .null) ∧
      (d.response = .null ∨ ¬Response.NoResponse d.response) := by
  rw [extract_eq] at hd
  obtain ⟨q, hresponse, hshow⟩ := response_of_conclude hd
  rw [hx] at hresponse
  have hkind := Response.not_noResponse_of_chain hresponse
  refine ⟨?_, hkind⟩
  rw [hshow]
  cases hkind with
  | inl hnull => simp [hnull, Response.isEmpty, Value.holds]
  | inr hfull =>
    have hempty : Response.isEmpty d.response = false :=
      Bool.eq_false_iff.mpr fun h => hfull (Response.isEmpty_iff.mp h)
    have hne : d.response ≠ .null := fun h => hfull (h ▸ .null)
    simp [hempty, hne]

structure Comment.SameBut (name : String) (c c' : Comment) : Prop where
  summary : c.summary = c'.summary
  details : c.details = c'.details
  tags : c.tags.filter (·.name ≠ name) = c'.tags.filter (·.name ≠ name)

structure Entity.SameBut (name : String) (e e' : Entity) : Prop where
  comment : (Comment.ofDocstring e.docstring).SameBut name (Comment.ofDocstring e'.docstring)
  container : e.containerDocstring = e'.containerDocstring
  rules : e.rules = e'.rules

section
variable {name : String} {tags tags' : List Tag}
  (h : tags.filter (·.name ≠ name) = tags'.filter (·.name ≠ name))
include h

theorem firstTag?_congr {other : String} (hne : other ≠ name) :
    Comment.firstTag? other tags = Comment.firstTag? other tags' := by
  have hfilter (ts : List Tag) :
      Comment.firstTag? other (ts.filter (·.name ≠ name)) = Comment.firstTag? other ts := by
    rw [Comment.firstTag?, Comment.firstTag?, List.find?_filter]
    congr 2
    funext t
    by_cases ht : t.name = other
    · simp [ht, hne]
    · simp [ht]
  rw [← hfilter tags, h, hfilter]

theorem isAuthenticated_congr (hname : lower name ≠ "authenticated") :
    isAuthenticated tags = isAuthenticated tags' := by
  have hfilter (ts : List Tag) : isAuthenticated (ts.filter (·.name ≠ name)) = isAuthenticated ts := by
    rw [Bool.eq_iff_iff, isAuthenticated_iff, isAuthenticated_iff]
    constructor
    · rintro ⟨t, ht, hmark⟩
      exact ⟨t, (List.mem_filter.mp ht).1, hmark⟩
    · rintro ⟨t, ht, hmark⟩
      have hne : t.name ≠ name := fun heq => hname (heq ▸ hmark)
      exact ⟨t, List.mem_filter.mpr ⟨ht, by simpa using hne⟩, hmark⟩
  rw [← hfilter tags, h, hfilter]

theorem Reading.ofTags_congr {kind : ParamKind} (hkind : kind.tagName ≠ name) (uri : Option String) :
    ofTags (some kind) uri tags = ofTags (some kind) uri tags' := by
  have hfilter (ts : List Tag) :
      (ts.filter (·.name ≠ name)).filter (·.name = kind.tagName) =
        ts.filter (·.name = kind.tagName) := by
    rw [List.filter_filter]
    refine List.filter_congr fun t _ => ?_
    by_cases ht : t.name = kind.tagName
    · simp [ht, hkind]
    · simp [ht]
  rw [← ofTags_filter kind uri tags, ← hfilter tags, h, hfilter, ofTags_filter]

theorem Plan.make_congr (hname : ∀ kind : ParamKind, kind.tagName ≠ name) (room : Nat)
    (uri : Option String) (rules : List (String × Value)) :
    make room uri tags rules = make room uri tags' rules := by
  have hread (kind : ParamKind) := Reading.ofTags_congr h (hname kind) uri
  simp only [make, hread]

end

/-- Where the comment has a response, neither files nor tags that name files matter. -/
theorem Extractor.extract_of_tag {x : Extractor} {route : Route} {entity entity' : Entity}
    (hsame : entity.SameBut "responseFile" entity')
    {room : Nat} (htag : ¬Response.Passes (Response.fromTag room) (x.asked route entity))
    (files files' : FileTree) (dir dir' : Option Path) :
    ({ x with resolver := Response.standard room files dir }.extract route entity).1 =
      ({ x with resolver := Response.standard room files' dir' }.extract route entity').1 := by
  obtain ⟨⟨hsummary, hdetails, htags⟩, hcontainer, hrules⟩ := hsame
  have hplan : Plan.ofEntity x.room route entity = Plan.ofEntity x.room route entity' := by
    rw [Plan.ofEntity, Plan.ofEntity, hrules]
    exact Plan.make_congr htags (by intro kind; cases kind <;> decide) _ _ _
  have hresponse := firstTag?_congr htags (show "response" ≠ "responseFile" by decide)
  have hlabel := firstTag?_congr htags (show "group" ≠ "responseFile" by decide)
  have hgroup : groupOf entity.docstring entity.containerDocstring x.defaultGroup =
      groupOf entity'.docstring entity'.containerDocstring x.defaultGroup := by
    simp only [groupOf, Comment.group?, hlabel, hcontainer]
  have hmark := isAuthenticated_congr htags (by decide)
  have hresolved (files : FileTree) (dir : Option Path) (q : Response.Query)
      (hq : Comment.firstTag? "response" q.tags = Comment.firstTag? "response"
        (Comment.ofDocstring entity.docstring).tags) :
      Response.standard room files dir q = Response.fromTag room (x.asked route entity) :=
    Response.standard_of_tag htag hq files dir
  simp only [extract_eq, conclude, ← hplan]
  cases (Plan.ofEntity x.room route entity).error? with
  | some e => rfl
  | none =>
    simp only [assemble]
    rw [hresolved files dir _ rfl, hresolved files' dir' _ hresponse.symm]
    simp only [hsummary, hdetails, hgroup, hmark]

/-- A chain asks up to the first strategy that fails or has a response, and answers as that one does,
whatever stands behind it. So a descriptor with a chain shows a response exactly when it has one, and
never an empty one; and a response in the comment makes files and tags of files irrelevant. -/
theorem Response.ask_upToFirst :
    (∀ (q : Query) (ss : List Strategy),
      ((∀ s ∈ ss, Passes s q) ∧
        ask q ss = (ss.length, ⟨.ok .null, ss.flatMap fun s => (s q).warnings⟩)) ∨
      ∃ front s behind, ss = front ++ s :: behind ∧ (∀ t ∈ front, Passes t q) ∧ ¬Passes s q ∧
        ∀ others, ask q (front ++ s :: others) =
          (front.length + 1, ⟨(s q).result, (front ++ [s]).flatMap fun t => (t q).warnings⟩)) ∧
    (∀ (x : Extractor) (ss : List Strategy) (route : Route) (entity : Entity) (d : Descriptor),
      x.resolver = chain ss → (x.extract route entity).1.result = .ok d →
        (d.showResponse = true ↔ d.response ≠ .null) ∧
          (d.response = .null ∨ ¬NoResponse d.response)) ∧
    ∀ (x : Extractor) (route : Route) (entity entity' : Entity) (room : Nat)
      (files files' : FileTree) (dir dir' : Option Path), entity.SameBut "responseFile" entity' →
        ¬Passes (fromTag room) (x.asked route entity) →
          ({ x with resolver := standard room files dir }.extract route entity).1 =
            ({ x with resolver := standard room files' dir' }.extract route entity').1 := by
  refine ⟨fun q ss => ?_, fun x ss route entity d hx hd => Extractor.showResponse_of_chain hx hd,
    fun x route entity entity' room files files' dir dir' hsame htag =>
      Extractor.extract_of_tag hsame htag files files' dir dir'⟩
  by_cases h : ∀ s ∈ ss, Passes s q
  · exact .inl ⟨h, ask_of_passes h⟩
  · obtain ⟨front, s, behind, hss, hfront, hs⟩ := exists_stop h
    exact .inr ⟨front, s, behind, hss, hfront, hs, ask_of_stops hfront hs⟩

def Entity.twiceAnswered : Entity where
  docstring := some "Show\n\n@responseFile user.json\n@response 404 none yet"

def Entity.elsewhereAnswered : Entity where
  docstring := some "Show\n\n@response 404 none yet\n@responseFile other.json"

theorem Response.ask_upToFirst_twiceAnswered :
    (∀ others, ask (responseQuery "404 none yet") (none :: fromTag 900 :: others) =
        (2, { result := .ok (.text "none yet") })) ∧
      (∀ d, ((Extractor.make {} (chain [none])).extract ⟨"/a", ["GET"], ⟨"app", "a"⟩⟩ {}).1.result =
        .ok d → (d.showResponse = true ↔ d.response ≠ .null)) ∧
      ((Extractor.make {} (standard 900 ⟨[], []⟩ .none)).extract ⟨"/a", ["GET"], ⟨"app", "a"⟩⟩
          .twiceAnswered).1 =
        ((Extractor.make {} (standard 900 ⟨["srv"], []⟩ (some ⟨"/", ["docs"]⟩))).extract
          ⟨"/a", ["GET"], ⟨"app", "a"⟩⟩ .elsewhereAnswered).1 := by
  have hanswer {q : Query} (hq : Comment.firstTag? "response" q.tags = some "404 none yet") :
      fromTag 900 q = { result := .ok (.text "none yet") } := by
    rw [fromTag_eq hq]
    rfl
  have hstops {q : Query} (hq : Comment.firstTag? "response" q.tags = some "404 none yet") :
      ¬Passes (fromTag 900) q := by
    rintro ⟨v, hv, hempty⟩
    rw [hanswer hq] at hv
    have hempty := isEmpty_iff.mpr (Except.ok.inj hv ▸ hempty)
    simp [isEmpty] at hempty
  obtain ⟨hask, hshow, htag⟩ := ask_upToFirst
  refine ⟨fun others => ?_, fun d hd => (hshow _ [none] _ {} d rfl hd).1, ?_⟩
  · obtain ⟨hall, -⟩ | ⟨front, s, behind, hss, -, hs, hupTo⟩ :=
      hask (responseQuery "404 none yet") [none, fromTag 900]
    · exact absurd (hall (fromTag 900) (by simp)) (hstops rfl)
    · obtain ⟨rfl, hfirst⟩ | ⟨front, rfl, hrest⟩ := List.cons_eq_append_iff.mp hss
      · obtain ⟨rfl, -⟩ := List.cons.inj hfirst
        exact absurd ⟨.null, rfl, .null⟩ hs
      · obtain ⟨rfl, hsecond⟩ | ⟨front, rfl, hnil⟩ := List.cons_eq_append_iff.mp hrest
        · obtain ⟨rfl, -⟩ := List.cons.inj hsecond
          exact hupTo others
        · simp at hnil
  · have htags : (Comment.ofDocstring Entity.twiceAnswered.docstring).tags =
        [⟨"responseFile", "user.json"⟩, ⟨"response", "404 none yet"⟩] := by decide +kernel
    refine htag (Extractor.make {} none) _ .twiceAnswered .elsewhereAnswered 900 _ _ _ _
      ⟨⟨by decide +kernel, by decide +kernel, by decide +kernel⟩, rfl, rfl⟩ (hstops ?_)
    rw [Extractor.asked, htags]
    rfl

end RouteDoc
