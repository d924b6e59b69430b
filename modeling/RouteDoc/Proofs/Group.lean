import RouteDoc.Proofs.Comment.FirstTag
import RouteDoc.Proofs.Extraction
/-! The group of a route. The comment of the handler decides it, then that of its container, then the default.
The container decides nothing else. -/
namespace RouteDoc
open Comment

/-- How the group of a route is found. -/
inductive GroupOf (docstring container : Option String) (default : String) : String → Prop where
  | handler {group : String} (h : FirstContent "group" (cleanLines docstring) group) :
      GroupOf docstring container default group
  | container {group : String} (hnone : ¬HasTagLine "group" (bodyLines docstring))
      (h : FirstContent "group" (cleanLines container) group) :
      GroupOf docstring container default group
  | default (hnone : ¬HasTagLine "group" (bodyLines docstring))
      (hnone' : ¬HasTagLine "group" (bodyLines container)) : GroupOf docstring container default default

theorem Comment.group?_eq_some_iff {comment : Option String} {group : String} :
    (ofDocstring comment).group? = some group ↔ FirstContent "group" (cleanLines comment) group := by
  rw [group?, tags_ofDocstring, firstTag?_eq_some_iff]

theorem Comment.group?_eq_none_iff {comment : Option String} :
    (ofDocstring comment).group? = none ↔ ¬HasTagLine "group" (bodyLines comment) := by
  rw [group?, tags_ofDocstring, firstTag?_eq_none_iff, hasTagLine_cleanLines]

/-- A group in the handler's comment counts, whatever the container says. -/
theorem groupOf_of_hasTagLine {docstring : Option String} (h : HasTagLine "group" (bodyLines docstring))
    (container container' : Option String) (default default' : String) :
    groupOf docstring container default = groupOf docstring container' default' := by
  obtain ⟨group, hgroup⟩ := Option.ne_none_iff_exists'.mp fun hnone =>
    group?_eq_none_iff.mp hnone h
  rw [groupOf, groupOf, hgroup]
  rfl

theorem groupOf_eq_iff {docstring container : Option String} {default group : String} :
    groupOf docstring container default = group ↔ GroupOf docstring container default group := by
  constructor
  · rintro rfl
    rw [groupOf]
    cases hhandler : (ofDocstring docstring).group? with
    | some group => exact .handler (group?_eq_some_iff.mp hhandler)
    | none =>
      have hnone := group?_eq_none_iff.mp hhandler
      cases hcontainer : (ofDocstring container).group? with
      | some group => exact .container hnone (group?_eq_some_iff.mp hcontainer)
      | none => exact .default hnone (group?_eq_none_iff.mp hcontainer)
  · intro h
    cases h with
    | handler h =>
      rw [groupOf, group?_eq_some_iff.mpr h]
      rfl
    | container hnone h =>
      rw [groupOf, group?_eq_none_iff.mpr hnone, group?_eq_some_iff.mpr h]
      rfl
    | default hnone hnone' =>
      rw [groupOf, group?_eq_none_iff.mpr hnone, group?_eq_none_iff.mpr hnone']
      rfl

namespace Extractor

def regroup (group : String) (o : Outcome ExtractionError Descriptor) :
    Outcome ExtractionError Descriptor :=
  { o with result := o.result.map fun d => { d with group } }

theorem assemble_container (x : Extractor) (route : Route) (entity : Entity) (container : Option String)
    (comment : Comment) (t : Tables) :
    x.assemble route { entity with containerDocstring := container } comment t =
      regroup (groupOf entity.docstring container x.defaultGroup)
        (x.assemble route entity comment t) := by
  simp only [assemble, regroup]
  cases (x.resolver _).result <;> rfl

/-- Another comment of the container can only bring another group. -/
theorem extract_container (x : Extractor) (route : Route) (entity : Entity)
    (container : Option String) :
    x.extract route { entity with containerDocstring := container } =
      (regroup (groupOf entity.docstring container x.defaultGroup) (x.extract route entity).1,
        (x.extract route entity).2) := by
  have hplan : Plan.ofEntity x.room route { entity with containerDocstring := container } =
    Plan.ofEntity x.room route entity := rfl
  simp only [extract_eq, hplan, conclude, assemble_container]
  cases (Plan.ofEntity x.room route entity).error? <;> rfl

theorem group_of_extract {x : Extractor} {route : Route} {entity : Entity} {d : Descriptor}
    (h : (x.extract route entity).1.result = .ok d) :
    d.group = groupOf entity.docstring entity.containerDocstring x.defaultGroup := by
  rw [extract_eq] at h
  obtain ⟨t, h⟩ := assemble_of_conclude h
  simp only [assemble] at h
  split at h
  case h_1 => cases h
  case h_2 =>
    cases h
    rfl

/-- The group of a route is found in the handler's comment, in the container's or in the default, and of all
that an extraction gives only the group depends on the container. -/
theorem extract_group :
    (∀ comment : Option String, HasTagLine "group" (bodyLines comment) ↔
      ∃ group, FirstContent "group" (cleanLines comment) group) ∧
    (∀ (docstring container : Option String) (default group : String),
      groupOf docstring container default = group ↔ GroupOf docstring container default group) ∧
    ∀ (x : Extractor) (route : Route) (entity : Entity),
      (∀ d, (x.extract route entity).1.result = .ok d →
        GroupOf entity.docstring entity.containerDocstring x.defaultGroup d.group) ∧
      ∀ container : Option String,
        let other := x.extract route { entity with containerDocstring := container }
        other.2 = (x.extract route entity).2 ∧
          other.1.warnings = (x.extract route entity).1.warnings ∧
          SameOutcome (fun d d' => d' = { d with group := d'.group } ∧
              (HasTagLine "group" (bodyLines entity.docstring) → d'.group = d.group))
            (x.extract route entity).1.result other.1.result := by
  refine ⟨fun comment => ?_, fun _ _ _ _ => groupOf_eq_iff, fun x route entity =>
    ⟨fun d hd => ?_, fun container => ?_⟩⟩
  · rw [← hasTagLine_cleanLines, hasTagLine_iff_exists]
  · exact groupOf_eq_iff.mp (group_of_extract hd).symm
  · rw [extract_container]
    refine ⟨rfl, rfl, ?_⟩
    simp only [regroup]
    cases hresult : (x.extract route entity).1.result with
    | error e => exact .error e
    | ok d =>
      refine .ok ⟨rfl, fun htag => ?_⟩
      rw [group_of_extract hresult]
      exact groupOf_of_hasTagLine htag _ _ _ _

def unnamed : Entity where
  docstring := some "Lists users.\n\n@group-by none"
  containerDocstring := some "/**\n * @AUTHENTICATED\n * @bodyParam x\n * @group A\n *  and B\n * @group C */"

def emptyNamed : Entity where
  docstring := some "/** Lists users.\n\t* @group */"
  containerDocstring := unnamed.containerDocstring

def quiet : Extractor := .make {} fun _ => { result := .ok .null }

theorem quiet_extract (route : Route) (entity : Entity)
    (h : (Plan.ofEntity quiet.room route entity).error? = none) :
    ∃ d, (quiet.extract route entity).1.result = .ok d := by
  rw [quiet.extract_of_plan route entity rfl rfl h]
  exact ⟨_, rfl⟩

theorem extract_group_unnamed :
    let route : Route := ⟨"/users", ["GET"], ⟨"app", "users"⟩⟩
    (∃ d, (quiet.extract route unnamed).1.result = .ok d ∧ d.group = "A\nand B" ∧
      GroupOf unnamed.docstring unnamed.containerDocstring "general" d.group) ∧
    ∃ d d', (quiet.extract route emptyNamed).1.result = .ok d ∧ d.group = "" ∧
      (quiet.extract route { emptyNamed with containerDocstring := none }).1.result = .ok d' ∧
      d' = { d with group := d'.group } ∧ d'.group = d.group := by
  intro route
  obtain ⟨hnamed, hgroup, hextract⟩ := extract_group
  obtain ⟨d, hd⟩ := quiet_extract route unnamed (by decide +kernel)
  obtain ⟨e, he⟩ := quiet_extract route emptyNamed (by decide +kernel)
  refine ⟨⟨d, hd, ?_, (hextract quiet route unnamed).1 d hd⟩, ?_⟩
  · rw [← (hgroup _ _ _ _).mpr ((hextract quiet route unnamed).1 d hd)]
    decide +kernel
  · have hempty : FirstContent "group" (cleanLines emptyNamed.docstring) "" :=
      group?_eq_some_iff.mp (by decide +kernel)
    have hhandler : GroupOf emptyNamed.docstring emptyNamed.containerDocstring quiet.defaultGroup "" :=
      .handler hempty
    have hsame := ((hextract quiet route emptyNamed).2 none).2.2
    generalize hother : (quiet.extract route { emptyNamed with containerDocstring := none }).1.result =
      r at hsame
    rw [he] at hsame
    cases hsame with
    | @ok _ e' h =>
      obtain ⟨hrest, hlabel⟩ := h
      refine ⟨e, e', he, ?_, rfl, hrest, hlabel ((hnamed _).mpr ⟨"", hempty⟩)⟩
      rw [← (hgroup _ _ _ _).mpr ((hextract quiet route emptyNamed).1 e he)]
      exact (hgroup _ _ _ _).mpr hhandler

end Extractor
end RouteDoc
