import RouteDoc.Proofs.Extraction.Entries
import RouteDoc.Proofs.Parameter.Tokens
/-! When an extraction fails. A rule without a text stops it before a tag is read, and a malformed
parameter tag before the resolver is asked; among such tags the kind counts before the place in the
comment. Without one, extraction fails when the resolver does, and with the resolver's error. -/
namespace RouteDoc
open Text

def firstMalformed? (kind : ParamKind) (tags : List Tag) : Option Tag :=
  tags.find? fun t => t.name = kind.tagName ∧ t.Malformed

def offender? (tags : List Tag) : Option Tag :=
  (firstMalformed? .body tags).or ((firstMalformed? .query tags).or (firstMalformed? .path tags))

theorem Reading.error_ofTags (kind : ParamKind) (uri : Option String) (tags : List Tag) :
    (ofTags (some kind) uri tags).error = (firstMalformed? kind tags).map (⟨·, uri⟩) :=
  (ofTags_eq kind uri tags).2

/-- What an extraction fails at before the resolver is asked. -/
def obstacle? (room : Nat) (route : Route) (entity : Entity) : Option ExtractionError :=
  ((unprintable? room entity.rules).map .rule).or
    ((offender? (Comment.ofDocstring entity.docstring).tags).map fun t => .tag ⟨t, some route.uri⟩)

theorem obstacle?_eq_none_iff {room : Nat} {route : Route} {entity : Entity} :
    obstacle? room route entity = none ↔ unprintable? room entity.rules = none ∧
      offender? (Comment.ofDocstring entity.docstring).tags = none := by
  rw [obstacle?, Option.or_eq_none_iff, Option.map_eq_none_iff, Option.map_eq_none_iff]

theorem Plan.error?_ofEntity (room : Nat) (route : Route) (entity : Entity) :
    (ofEntity room route entity).error? = obstacle? room route entity := by
  rw [ofEntity, make, Rule.drafts_eq, obstacle?, offender?]
  simp only [Reading.error_ofTags, Option.isSome_map]
  cases hrules : unprintable? room entity.rules with
  | some e => simp [error?]
  | none =>
    cases hbody : firstMalformed? .body (Comment.ofDocstring entity.docstring).tags with
    | some t => simp [error?, Reading.error_ofTags, hbody]
    | none =>
      cases hquery : firstMalformed? .query (Comment.ofDocstring entity.docstring).tags with
      | some t => simp [error?, Reading.error_ofTags, hbody, hquery]
      | none => simp [error?, Reading.error_ofTags, hbody, hquery, Function.comp_def]

theorem Plan.warnings_of_unprintable {room : Nat} {route : Route} {entity : Entity} {e : Raised}
    (h : unprintable? room entity.rules = some e) (uri : Option String) :
    (ofEntity room route entity).warnings uri = [] := by
  rw [ofEntity, make, Rule.drafts_eq, h]
  rfl

theorem unprintable?_eq_none_iff_printable {room : Nat} {rules : List (String × Value)} :
    unprintable? room rules = none ↔ ∀ r ∈ rules, Rule.Printable room r.2 := by
  rw [unprintable?, List.findSome?_eq_none_iff]
  refine forall₂_congr fun r _ => ?_
  rw [← Rule.exists_tokens_iff]
  cases Rule.tokens room r.2 <;> simp

namespace Extractor

def asked (x : Extractor) (route : Route) (entity : Entity) : Response.Query :=
  let plan := Plan.ofEntity x.room route entity
  let filled := plan.filled (x.synthesizer.fillAll plan.drafts).1
  ⟨route, (Comment.ofDocstring entity.docstring).tags, x.config, filled .body, filled .query⟩

theorem extract_of_obstacle (x : Extractor) {route : Route} {entity : Entity} {e : ExtractionError}
    (h : obstacle? x.room route entity = some e) :
    (x.extract route entity).1 =
      { result := .error e
        warnings := (Plan.ofEntity x.room route entity).warnings (some route.uri) } := by
  have herror : (Plan.ofEntity x.room route entity).error? = some e := by rw [Plan.error?_ofEntity, h]
  simp only [extract_eq, conclude, herror]

theorem obstacle?_of_extract {x : Extractor} {route : Route} {entity : Entity} {d : Descriptor}
    (h : (x.extract route entity).1.result = .ok d) : obstacle? x.room route entity = none := by
  cases hbad : obstacle? x.room route entity with
  | none => rfl
  | some e => simp [x.extract_of_obstacle hbad] at h

/-- Printable rules and a comment without malformed parameter tags lead to the resolver. -/
theorem extract_of_wellFormed (x : Extractor) {route : Route} {entity : Entity}
    (h : obstacle? x.room route entity = none) :
    (∀ f, (x.resolver (x.asked route entity)).result = .error f →
      (x.extract route entity).1.result = .error (.response f)) ∧
    ∀ v, (x.resolver (x.asked route entity)).result = .ok v →
      ∃ d, (x.extract route entity).1.result = .ok d ∧ d.response = v := by
  have herror : (Plan.ofEntity x.room route entity).error? = none := by rw [Plan.error?_ofEntity, h]
  simp only [extract_eq, conclude, herror, assemble, Plan.tables]
  refine ⟨fun f hf => ?_, fun v hv => ?_⟩
  · simp only [asked] at hf
    simp only [hf]
  · simp only [asked] at hv
    simp only [hv]
    exact ⟨_, rfl, rfl⟩

/-- An extraction fails at the first rule without a text, else at the first malformed parameter tag,
whatever the resolver is, and otherwise exactly when the resolver fails. -/
theorem extract_fails_iff (x : Extractor) (route : Route) (entity : Entity) :
    (unprintable? x.room entity.rules = none ↔ ∀ r ∈ entity.rules, Rule.Printable x.room r.2) ∧
    (∀ e, unprintable? x.room entity.rules = some e →
      ∀ r, ({ x with resolver := r }.extract route entity).1 = { result := .error (.rule e) }) ∧
    (unprintable? x.room entity.rules = none →
      (∀ t, offender? (Comment.ofDocstring entity.docstring).tags = some t →
        (x.extract route entity).1.result = .error (.tag ⟨t, some route.uri⟩) ∧
          ∀ r, ({ x with resolver := r }.extract route entity).1 = (x.extract route entity).1) ∧
      (offender? (Comment.ofDocstring entity.docstring).tags = none →
        (∀ e, (x.extract route entity).1.result = .error e ↔
          ∃ f, e = .response f ∧ (x.resolver (x.asked route entity)).result = .error f) ∧
        ∀ v, (x.resolver (x.asked route entity)).result = .ok v →
          ∃ d, (x.extract route entity).1.result = .ok d ∧ d.response = v)) := by
  refine ⟨unprintable?_eq_none_iff_printable, fun e he r => ?_, fun hprintable =>
    ⟨fun t ht => ?_, fun hnone => ?_⟩⟩
  · have hobstacle : obstacle? x.room route entity = some (.rule e) := by rw [obstacle?, he]; rfl
    rw [extract_of_obstacle { x with resolver := r } hobstacle, Plan.warnings_of_unprintable he]
  · have hobstacle : obstacle? x.room route entity = some (.tag ⟨t, some route.uri⟩) := by
      rw [obstacle?, hprintable, ht]
      rfl
    have hfail (y : Extractor) (hroom : y.room = x.room) : (y.extract route entity).1 =
        { result := .error (.tag ⟨t, some route.uri⟩)
          warnings := (Plan.ofEntity y.room route entity).warnings (some route.uri) } :=
      y.extract_of_obstacle (hroom ▸ hobstacle)
    exact ⟨by rw [hfail x rfl], fun r => by rw [hfail x rfl, hfail { x with resolver := r } rfl]⟩
  · obtain ⟨hfails, hgives⟩ := x.extract_of_wellFormed (obstacle?_eq_none_iff.mpr ⟨hprintable, hnone⟩)
    refine ⟨fun e => ⟨fun he => ?_, ?_⟩, hgives⟩
    · cases hresolved : (x.resolver (x.asked route entity)).result with
      | error f =>
        rw [hfails f hresolved] at he
        exact ⟨f, (Except.error.inj he).symm, rfl⟩
      | ok v =>
        obtain ⟨d, hd, -⟩ := hgives v hresolved
        rw [hd] at he
        cases he
    · rintro ⟨f, rfl, hf⟩
      exact hfails f hf

def threefold : Entity where
  docstring := some "T\n\n@queryParam q\n@bodyParam a integer\n@bodyParam b\u00a0\n@pathParam"

def oddlyTyped : Entity where
  docstring := some "T\n\n@queryParam q float Example: x\n@bodyParam b nothing\n@bodyparam"
  rules := [("a", .list [.null, .text "||"])]

def unprintable : Entity where
  docstring := threefold.docstring
  rules := [("a", .text "string"), ("b", .list [.int (Int.pow 10 4300)])]

def failing : Extractor := make {} fun _ => { result := .error .tooManyDigits }

theorem extract_fails_iff_threefold :
    (failing.extract ⟨"/a", ["GET"], ⟨"app", "a"⟩⟩ threefold).1.result =
        .error (.tag ⟨⟨"bodyParam", "b"⟩, some "/a"⟩) ∧
      (failing.extract ⟨"/a", ["GET"], ⟨"app", "a"⟩⟩ oddlyTyped).1.result =
        .error (.response .tooManyDigits) ∧
      (failing.extract ⟨"/a", ["GET"], ⟨"app", "a"⟩⟩ unprintable).1 =
        { result := .error (.rule .tooManyDigits) } := by
  have hoffender : offender? (Comment.ofDocstring threefold.docstring).tags =
      some ⟨"bodyParam", "b"⟩ := by decide +kernel
  have hnone : offender? (Comment.ofDocstring oddlyTyped.docstring).tags = none := by decide +kernel
  have hodd : unprintable? failing.room oddlyTyped.rules = none := by decide +kernel
  have hrules : unprintable? failing.room unprintable.rules = some .tooManyDigits := by decide +kernel
  exact ⟨(((extract_fails_iff failing _ threefold).2.2 rfl).1 _ hoffender).1,
    ((((extract_fails_iff failing _ oddlyTyped).2.2 hodd).2 hnone).1 _).mpr ⟨_, rfl, rfl⟩,
    (extract_fails_iff failing _ unprintable).2.1 _ hrules failing.resolver⟩

/-- A rule that raises when its text is asked for, no tags, and a resolver that does not fail. -/
theorem not_extract_without_rule_error :
    let x := make {} Response.none
    let entity : Entity := { rules := [("a", .object (.error (.typeError "x")) (.ok "x"))] }
    offender? (Comment.ofDocstring entity.docstring).tags = none ∧
      (∀ q, (x.resolver q).result = .ok .null) ∧
      (x.extract ⟨"/a", ["GET"], ⟨"app", "a"⟩⟩ entity).1.result = .error (.rule (.typeError "x")) := by
  refine ⟨by decide +kernel, fun _ => rfl, ?_⟩
  have hobstacle : obstacle? Value.usualRoom ⟨"/a", ["GET"], ⟨"app", "a"⟩⟩
      { rules := [("a", .object (.error (.typeError "x")) (.ok "x"))] } =
        some (.rule (.typeError "x")) := by rfl
  exact congrArg Outcome.result ((make {} Response.none).extract_of_obstacle hobstacle)

end Extractor
end RouteDoc
