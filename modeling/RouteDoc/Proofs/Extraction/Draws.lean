import RouteDoc.Proofs.Extraction.Entries
/-! The draws of a session. With the recipes of the start every entry without an example of its own
takes its sample at the count that the drawing entries before it have left, and the next extraction
starts where the last one stopped, whether it has failed or not. -/
namespace RouteDoc
open Text

theorem Recipe.draws_ofType (t : ParamType) :
    (ofType t).draws = decide (t ≠ .array ∧ t ≠ .json) := by
  cases t <;> rfl

namespace Synthesizer

theorem recipe_countingFrom (n : Int) (t : ParamType) :
    (countingFrom n).recipe t.name = Recipe.ofType t := by
  cases t <;> rfl

theorem synthesize_countingFrom (n : Int) (t : ParamType) :
    (countingFrom n).synthesize t.name =
      ((Recipe.ofType t).value n, countingFrom (if t ≠ .array ∧ t ≠ .json then n + 1 else n)) := by
  rw [synthesize, recipe_countingFrom, Recipe.draws_ofType]
  by_cases h : t ≠ .array ∧ t ≠ .json
  · simp [h, countingFrom]
  · rw [if_neg (by simpa using h), if_neg h]
    rfl

end Synthesizer

namespace Entry

/-- The type of which a sample is wanted: that of a rule, or of a tag without an example. -/
def wanted? : Entry → Option ParamType
  | rule _ (.error _) => none
  | rule _ (.ok ts) => some (Rule.typeOf (ts.filter (· != "required")))
  | tag t =>
    match Tag.fields? t.content.toList with
    | some (_, type, _, description) =>
      if (Description.split description).2 = none then some (.ofDeclared (String.ofList type))
      else none
    | none => none

/-- The type of which a sample is drawn; those of arrays and JSON are constants. -/
def drawn? (e : Entry) : Option ParamType := e.wanted?.filter fun t => t ≠ .array ∧ t ≠ .json

def draws (es : List Entry) : Nat := es.countP (·.drawn?.isSome)

theorem draws_append (es fs : List Entry) : draws (es ++ fs) = draws es + draws fs :=
  List.countP_append

theorem draws_cons (e : Entry) (es : List Entry) : draws (e :: es) = draws [e] + draws es :=
  draws_append [e] es

theorem sample_eq_wanted_iff {e : Entry} {d : Draft} (h : e.draft? = some d) {t : ParamType} :
    d.sample = .wanted t ↔ e.wanted? = some t := by
  cases e with
  | rule name ts =>
    cases ts with
    | error e => cases h
    | ok ts =>
      obtain rfl := Option.some.inj h
      simp [wanted?, Rule.draftOf]
  | tag tag =>
    rw [draft?, Tag.draft?, Option.map_eq_some_iff] at h
    obtain ⟨⟨name, type, required, description⟩, hfields, rfl⟩ := h
    rw [wanted?, hfields]
    cases hinline : (Description.split description).2 with
    | none => simp [hinline]
    | some inline => simp [hinline]

/-- A parameter that an entry comes to: as its draft says, and its sample, if one is wanted, as the
type's recipe makes it at a count. -/
structure Sampled (e : Entry) (n : Int) (p : Parameter Value) : Prop where
  fills : ∃ d, e.draft? = some d ∧ Fills d p
  wanted : ∀ t, e.wanted? = some t → p.sample = (Recipe.ofType t).value n

/-- What entries come to one after the other when the counter stands at `n` before them: each takes
its sample after the draws of those in front of it. -/
structure SampledFrom (n : Int) (es : List Entry) (ps : List (Parameter Value)) : Prop where
  length_eq : ps.length = es.length
  sampled : ∀ front e behind, es = front ++ e :: behind →
    ∃ p, ps[front.length]? = some p ∧ e.Sampled (n + draws front) p

theorem SampledFrom.nil (n : Int) : SampledFrom n [] [] := ⟨rfl, by simp⟩

theorem SampledFrom.cons {n : Int} {e : Entry} {p : Parameter Value} (hp : e.Sampled n p)
    {es : List Entry} {ps : List (Parameter Value)} (h : SampledFrom (n + draws [e]) es ps) :
    SampledFrom n (e :: es) (p :: ps) := by
  refine ⟨congrArg (· + 1) h.length_eq, fun front f behind hsplit => ?_⟩
  cases front with
  | nil =>
    obtain ⟨rfl, rfl⟩ := List.cons.inj hsplit
    exact ⟨p, rfl, by simpa [draws] using hp⟩
  | cons g front =>
    obtain ⟨rfl, rfl⟩ := List.cons.inj hsplit
    obtain ⟨q, hq, hsampled⟩ := h.sampled front f behind rfl
    refine ⟨q, hq, ?_⟩
    rwa [draws_cons, Int.natCast_add, ← Int.add_assoc]

end Entry

namespace Synthesizer

theorem fill_countingFrom (n : Int) {e : Entry} {d : Draft} (h : e.draft? = some d) :
    e.Sampled n ((countingFrom n).fill d).1 ∧
      ((countingFrom n).fill d).2 = countingFrom (n + Entry.draws [e]) := by
  have hfills : Fills d ((countingFrom n).fill d).1 := ((countingFrom n).fill_filledBy d).toFills
  cases hd : d.sample with
  | given v =>
    have hnone : e.wanted? = none := by
      rw [Option.eq_none_iff_forall_ne_some]
      intro t ht
      simp [(Entry.sample_eq_wanted_iff h).mpr ht] at hd
    refine ⟨⟨⟨d, h, hfills⟩, by simp [hnone]⟩, ?_⟩
    simp [fill, hd, Entry.draws, Entry.drawn?, hnone]
  | wanted t =>
    have hwanted : e.wanted? = some t := (Entry.sample_eq_wanted_iff h).mp hd
    refine ⟨⟨⟨d, h, hfills⟩, fun u hu => ?_⟩, ?_⟩
    · obtain rfl : t = u := Option.some.inj (hwanted.symm.trans hu)
      simp only [fill, hd, synthesize_countingFrom]
    · simp only [fill, hd, synthesize_countingFrom]
      by_cases hdraws : t ≠ .array ∧ t ≠ .json
      · simp [Entry.draws, Entry.drawn?, hwanted, hdraws]
      · rw [if_neg hdraws]
        simp [Entry.draws, Entry.drawn?, hwanted, hdraws]

theorem fillAll_countingFrom (n : Int) {es : List Entry} (h : ∀ e ∈ es, ¬e.Malformed) :
    Entry.SampledFrom n es ((countingFrom n).fillAll (es.filterMap Entry.draft?)).1 ∧
      ((countingFrom n).fillAll (es.filterMap Entry.draft?)).2 =
        countingFrom (n + Entry.draws es) := by
  induction es generalizing n with
  | nil => exact ⟨.nil n, by simp [fillAll, Entry.draws]⟩
  | cons e es ih =>
    obtain ⟨d, hd⟩ : ∃ d, e.draft? = some d := by
      rw [← Option.ne_none_iff_exists', ne_eq, Entry.draft?_eq_none_iff]
      exact h e (by simp)
    obtain ⟨hsampled, hnext⟩ := fill_countingFrom n hd
    obtain ⟨hrest, hlast⟩ := ih (n + Entry.draws [e]) fun f hf => h f (List.mem_cons_of_mem e hf)
    rw [List.filterMap_cons_some hd]
    simp only [fillAll, hnext]
    refine ⟨hrest.cons hsampled, ?_⟩
    rw [hlast, Entry.draws_cons e es, Int.natCast_add, Int.add_assoc]

end Synthesizer

/-- The entries of an extraction that are read, up to the first malformed one. -/
def Entity.entries (room : Nat) (entity : Entity) : List Entry :=
  Entry.readable (Entry.all room (Comment.ofDocstring entity.docstring).tags entity.rules)

namespace Extractor

def countingFrom (x : Extractor) (n : Int) : Extractor :=
  { x with synthesizer := .countingFrom n }

def session (x : Extractor) :
    List (Route × Entity) → List (Outcome ExtractionError Descriptor) × Extractor
  | [] => ([], x)
  | v :: vs =>
    let (o, x) := x.extract v.1 v.2
    let (os, x) := session x vs
    (o :: os, x)

def sessionDraws (room : Nat) (visits : List (Route × Entity)) : Nat :=
  Entry.draws (visits.flatMap fun v => v.2.entries room)

theorem extract_countingFrom (x : Extractor) (n : Int) (route : Route) (entity : Entity) :
    ∃ ps, (x.countingFrom n).extract route entity =
        (x.conclude route entity ps, x.countingFrom (n + Entry.draws (entity.entries x.room))) ∧
      Entry.SampledFrom n (entity.entries x.room) ps := by
  have hgood : ∀ e ∈ entity.entries x.room, ¬e.Malformed := by
    intro e he
    simpa using List.mem_takeWhile_imp he
  obtain ⟨hsampled, hnext⟩ := Synthesizer.fillAll_countingFrom n hgood
  refine ⟨_, ?_, hsampled⟩
  have hdrafts : (Plan.ofEntity (x.countingFrom n).room route entity).drafts =
      (entity.entries x.room).filterMap Entry.draft? := Plan.drafts_make _ _ _ _
  have hsynthesizer : (x.countingFrom n).synthesizer = .countingFrom n := rfl
  rw [extract_eq, hdrafts, hsynthesizer]
  simp only [hnext]
  rfl

/-- In a session each extraction takes its samples from the count at which the one before it has
stopped, and a drawing entry takes the count after the drawing entries before it. -/
theorem session_draws (x : Extractor) (n : Int) (visits : List (Route × Entity)) :
    ((x.countingFrom n).session visits).2 = x.countingFrom (n + sessionDraws x.room visits) ∧
      ∀ before route entity after, visits = before ++ (route, entity) :: after →
        ∃ ps, ((x.countingFrom n).session visits).1[before.length]? =
            some (x.conclude route entity ps) ∧
          Entry.SampledFrom (n + sessionDraws x.room before) (entity.entries x.room) ps := by
  induction visits generalizing n with
  | nil => exact ⟨by simp [session, sessionDraws, Entry.draws], by simp⟩
  | cons v visits ih =>
    obtain ⟨route, entity⟩ := v
    obtain ⟨ps, hextract, hsampled⟩ := x.extract_countingFrom n route entity
    -- the later extractions form a session that starts at the count which this one leaves
    obtain ⟨hlast, hlater⟩ := ih (n + Entry.draws (entity.entries x.room))
    have hcount (vs : List (Route × Entity)) :
        n + (sessionDraws x.room ((route, entity) :: vs) : Int) =
          n + Entry.draws (entity.entries x.room) + sessionDraws x.room vs := by
      rw [sessionDraws, List.flatMap_cons, Entry.draws_append, Int.natCast_add, Int.add_assoc]
      rfl
    rw [session, hextract, hcount]
    refine ⟨hlast, fun before route' entity' after hsplit => ?_⟩
    cases before with
    | nil =>
      obtain ⟨hv, -⟩ := List.cons.inj hsplit
      obtain ⟨rfl, rfl⟩ := Prod.mk.inj hv
      exact ⟨ps, rfl, by simpa [sessionDraws, Entry.draws] using hsampled⟩
    | cons w before =>
      obtain ⟨rfl, hrest⟩ := List.cons.inj hsplit
      rw [hcount]
      exact hlater before route' entity' after hrest

def stoppedSession : List (Route × Entity) := [
  (⟨"/a", ["GET"], ⟨"app", "a"⟩⟩,
    { docstring := some "A\n\n@pathParam id integer\n@queryParam q\n@bodyParam b json"
      rules := [("b", .text "string"), ("c", .text "array")] }),
  (⟨"/c", ["GET"], ⟨"app", "c"⟩⟩,
    { docstring := some "C\n\n@queryParam q integer"
      rules := [("d", .text "image"), ("e", .int (Int.pow 10 4300)), ("f", .text "string")] }),
  (⟨"/b", ["GET"], ⟨"app", "b"⟩⟩,
    { docstring := some "B\n\n@bodyParam n numeric Example: 3\n@bodyParam n boolean" })]

theorem session_draws_stopped :
    (((make {} Response.none).countingFrom 5).session stoppedSession).2 =
      (make {} Response.none).countingFrom 8 := by
  have hcount : sessionDraws (make {} Response.none).room stoppedSession = 3 := by decide +kernel
  rw [(session_draws (make {} Response.none) 5 stoppedSession).1, hcount]
  rfl

def muted : Entity where
  rules := [("a", .object (.error (.typeError "x")) (.ok "x")), ("b", .text "integer")]

theorem not_draws_muted :
    (Comment.ofDocstring muted.docstring).tags = [] ∧
      Entry.draws (Entry.all Value.usualRoom [] muted.rules) = 1 ∧
      (((make {} Response.none).countingFrom 5).extract ⟨"/a", ["GET"], ⟨"app", "a"⟩⟩ muted).2 =
        (make {} Response.none).countingFrom 5 := by
  refine ⟨by decide +kernel, by decide +kernel, ?_⟩
  obtain ⟨ps, hextract, -⟩ :=
    (make {} Response.none).extract_countingFrom 5 ⟨"/a", ["GET"], ⟨"app", "a"⟩⟩ muted
  have hdraws : Entry.draws (muted.entries (make {} Response.none).room) = 0 := by decide +kernel
  rw [hextract, hdraws]
  rfl

end Extractor
end RouteDoc
