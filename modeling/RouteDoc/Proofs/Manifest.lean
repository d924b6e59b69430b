import RouteDoc.Proofs.Handler
import RouteDoc.Proofs.Loading
import RouteDoc.Proofs.Outcome
/-! Which documents are manifests. An item describes a route when it is a mapping with texts as keys in which
address, methods and handler all read. A list is loaded when all its items do; else the first that does not
is named. -/
namespace RouteDoc
variable {α : Type}

namespace Schema

inductive HasField (name : String) (Reads : Value → α → Prop) (es : List (Value × Value)) (a : α) :
    Prop where
  | given {v : Value} (h : Assoc.get? (.text name) es = some v) (hv : Reads v a) :
      HasField name Reads es a

def FieldsOf (es : List (Value × Value)) (fields : List (String × Value)) : Prop :=
  ∀ name, Assoc.get? name fields = Assoc.get? (.text name) es

theorem sameKey_text {k : Value} {name : String} (hk : ∀ s, k ≠ .text s) :
    (k == .text name) = false := by
  cases k with
  | text s => exact absurd rfl (hk s)
  | float x => cases x <;> simp [BEq.beq, Value.sameKey, Value.integral?]
  | _ => rfl

theorem FieldsOf.nil : FieldsOf [] [] := fun _ => rfl

theorem FieldsOf.cons {es : List (Value × Value)} {fields : List (String × Value)}
    (h : FieldsOf es fields) (k : String) (v : Value) :
    FieldsOf ((.text k, v) :: es) ((k, v) :: fields) := by
  intro name
  have hbeq : (Value.text k == .text name) = (k == name) := rfl
  rw [Assoc.get?, Assoc.get?, hbeq, h name]

theorem FieldsOf.skip {es : List (Value × Value)} {fields : List (String × Value)}
    (h : FieldsOf es fields) {k : Value} (hk : ∀ s, k ≠ .text s) (v : Value) :
    FieldsOf ((k, v) :: es) fields := by
  intro name
  rw [Assoc.get?, sameKey_text hk, h name]
  rfl

theorem fieldsOf_of_textKeyed? {es : List (Value × Value)} {fields : List (String × Value)}
    (h : textKeyed? es = some fields) : FieldsOf es fields := by
  obtain rfl := textKeyed?_eq_some_iff.mp h
  clear h
  induction fields with
  | nil => exact .nil
  | cons f fields ih => exact ih.cons f.1 f.2

theorem required_eq_ok_iff {es : List (Value × Value)} {fields : List (String × Value)}
    (hes : FieldsOf es fields) {name : String} {location : List String}
    {check : List String → Value → Checked α} {Reads : Value → α → Prop}
    (hcheck : ∀ v a, check (location ++ [name]) v = .ok a ↔ Reads v a) {a : α} :
    required name check location fields = .ok a ↔ HasField name Reads es a := by
  rw [required, hes name]
  cases hv : Assoc.get? (.text name) es with
  | none =>
    refine ⟨nofun, fun h => ?_⟩
    cases h with
    | given h _ => cases hv.symm.trans h
  | some v =>
    refine (hcheck v a).trans ⟨.given hv, fun h => ?_⟩
    cases h with
    | given h hr =>
      obtain rfl := Option.some.inj (hv.symm.trans h)
      exact hr

end Schema

open Schema

/-- A reference, or a record of component and member; other fields of a record do not count. -/
inductive ReadsHandler : Value → HandlerRef → Prop where
  | reference {s : String} {h : HandlerRef} (hs : HandlerRef.parse? s = some h) :
      ReadsHandler (.text s) h
  | record {es : List (Value × Value)} {component member : String}
      (hc : HasField "component" ReadsText es component) (hm : HasField "member" ReadsText es member) :
      ReadsHandler (.mapping es) ⟨component, member⟩

theorem HandlerRef.ofValue_text_eq_ok_iff {location : List String} {s : String} {h : HandlerRef} :
    HandlerRef.ofValue location (.text s) = .ok h ↔ HandlerRef.parse? s = some h := by
  rw [HandlerRef.ofValue]
  cases HandlerRef.parse? s with
  | none => simp [fail]
  | some h' => simp

/-- The fields of a mapping whose keys are not all texts. -/
theorem fieldsOf_filterMap (es : List (Value × Value)) :
    FieldsOf es (es.filterMap fun (k, v) =>
      match k with
      | .text s => some (s, v)
      | _ => none) := by
  induction es with
  | nil => exact .nil
  | cons e es ih =>
    obtain ⟨k, v⟩ := e
    cases k with
    | text s => exact ih.cons s v
    | _ => exact ih.skip (by simp) v

theorem map_both_eq_ok_iff {β γ : Type} {a : Checked α} {b : Checked β} {f : α × β → γ} {z : γ} :
    (both a b).map f = .ok z ↔ ∃ x y, a = .ok x ∧ b = .ok y ∧ f (x, y) = z := by
  simp only [map_eq_ok_iff, Prod.exists, both_eq_ok_iff, and_assoc]

theorem HandlerRef.ofValue_eq_ok_iff {location : List String} {v : Value} {h : HandlerRef} :
    HandlerRef.ofValue location v = .ok h ↔ ReadsHandler v h := by
  have hfields (es : List (Value × Value)) : HandlerRef.ofValue location (.mapping es) = .ok h ↔
      ∃ c m, HasField "component" ReadsText es c ∧ HasField "member" ReadsText es m ∧ ⟨c, m⟩ = h := by
    rw [HandlerRef.ofValue, map_both_eq_ok_iff]
    have hread (name s : String) : required name text location _ = .ok s ↔
        HasField name ReadsText es s :=
      required_eq_ok_iff (fieldsOf_filterMap es) fun _ _ => text_eq_ok_iff
    exact exists₂_congr fun c m => and_congr (hread "component" c) (and_congr_left' (hread "member" m))
  constructor
  · intro hv
    cases v with
    | text s => exact .reference (ofValue_text_eq_ok_iff.mp hv)
    | mapping es =>
      obtain ⟨c, m, hc, hm, rfl⟩ := (hfields es).mp hv
      exact .record hc hm
    | _ => simp [HandlerRef.ofValue, fail] at hv
  · intro hv
    cases hv with
    | reference hs => exact ofValue_text_eq_ok_iff.mpr hs
    | record hc hm => exact (hfields _).mpr ⟨_, _, hc, hm, rfl⟩

namespace Manifest

inductive Describes : Value → Route → Prop where
  | record {es : List (Value × Value)} {uri : String} {methods : List String} {handler : HandlerRef}
      (keys : Config.TextKeys es) (huri : HasField "uri" ReadsText es uri)
      (hmethods : HasField "methods" ReadsTextList es methods)
      (hhandler : HasField "handler" ReadsHandler es handler) :
      Describes (.mapping es) (.make uri methods handler)

theorem ofFields_eq_ok_iff {es : List (Value × Value)} {fields : List (String × Value)}
    (hes : FieldsOf es fields) {r : Route} :
    Route.ofFields fields = .ok r ↔ ∃ uri methods handler, HasField "uri" ReadsText es uri ∧
      HasField "methods" ReadsTextList es methods ∧ HasField "handler" ReadsHandler es handler ∧
        Route.make uri methods handler = r := by
  have huri (u : String) : required "uri" text [] fields = .ok u ↔ HasField "uri" ReadsText es u :=
    required_eq_ok_iff hes fun _ _ => text_eq_ok_iff
  have hmethods (ms : List String) :
      required "methods" textList [] fields = .ok ms ↔ HasField "methods" ReadsTextList es ms :=
    required_eq_ok_iff hes fun _ _ => textList_eq_ok_iff
  have hhandler (h : HandlerRef) : required "handler" HandlerRef.ofValue [] fields = .ok h ↔
      HasField "handler" ReadsHandler es h :=
    required_eq_ok_iff hes fun _ _ => HandlerRef.ofValue_eq_ok_iff
  rw [Route.ofFields, map_both_eq_ok_iff]
  simp only [Prod.exists, both_eq_ok_iff, huri, hmethods, hhandler, and_assoc]

theorem route_eq_ok_iff {v : Value} {r : Route} : route v = .ok r ↔ Describes v r := by
  constructor
  · intro h
    cases v with
    | mapping es =>
      rw [route] at h
      cases hes : textKeyed? es with
      | none => simp [hes] at h
      | some fields =>
        rw [hes] at h
        obtain ⟨uri, methods, handler, huri, hmethods, hhandler, rfl⟩ :=
          (ofFields_eq_ok_iff (fieldsOf_of_textKeyed? hes)).mp (mapError_eq_ok_iff.mp h)
        exact .record (Config.textKeys_iff.mpr ⟨fields, hes⟩) huri hmethods hhandler
    | _ => cases h
  · rintro ⟨keys, huri, hmethods, hhandler⟩
    obtain ⟨fields, hes⟩ := Config.textKeys_iff.mp keys
    rw [route, hes]
    exact mapError_eq_ok_iff.mpr ((ofFields_eq_ok_iff (fieldsOf_of_textKeyed? hes)).mpr
      ⟨_, _, _, huri, hmethods, hhandler, rfl⟩)

inductive IllTyped (name : String) (Reads : Value → α → Prop) (es : List (Value × Value)) : Prop where
  | given {v : Value} (h : Assoc.get? (.text name) es = some v) (hv : ∀ a, ¬Reads v a)

/-- What is wrong with an item that describes no route. -/
inductive Flaw : Value → Prop where
  | notMapping {v : Value} (h : ∀ es, v ≠ .mapping es) : Flaw v
  | keyNotText {es : List (Value × Value)} {e : Value × Value} (he : e ∈ es)
      (hkey : ∀ s, e.1 ≠ .text s) : Flaw (.mapping es)
  | missing {es : List (Value × Value)} {name : String} (hname : name ∈ ["uri", "methods", "handler"])
      (h : Assoc.get? (.text name) es = none) : Flaw (.mapping es)
  | uri {es : List (Value × Value)} (h : IllTyped "uri" ReadsText es) : Flaw (.mapping es)
  | methods {es : List (Value × Value)} (h : IllTyped "methods" ReadsTextList es) : Flaw (.mapping es)
  | reference {es : List (Value × Value)} {s : String}
      (h : Assoc.get? (.text "handler") es = some (.text s))
      (hs : HandlerRef.Refused (Text.trim s.toList)) : Flaw (.mapping es)
  | handler {es : List (Value × Value)} {v : Value} (h : Assoc.get? (.text "handler") es = some v)
      (hv : ∀ s, v ≠ .text s) (hrecord : ∀ r, ¬ReadsHandler v r) : Flaw (.mapping es)

/-- A field is read, missing or ill typed. -/
theorem field_cases (name : String) (Reads : Value → α → Prop) (es : List (Value × Value)) :
    (∃ a, HasField name Reads es a) ∨ Assoc.get? (.text name) es = none ∨ IllTyped name Reads es := by
  cases hv : Assoc.get? (.text name) es with
  | none => exact .inr (.inl rfl)
  | some v =>
    by_cases hr : ∃ a, Reads v a
    · obtain ⟨a, hr⟩ := hr
      exact .inl ⟨a, .given hv hr⟩
    · exact .inr (.inr (.given hv (not_exists.mp hr)))

theorem not_hasField_of_none {name : String} {Reads : Value → α → Prop} {es : List (Value × Value)}
    (h : Assoc.get? (.text name) es = none) (a : α) : ¬HasField name Reads es a := by
  rintro ⟨hv, -⟩
  cases h.symm.trans hv

theorem IllTyped.not_hasField {name : String} {Reads : Value → α → Prop} {es : List (Value × Value)}
    (h : IllTyped name Reads es) (a : α) : ¬HasField name Reads es a := by
  obtain ⟨hv, hnot⟩ := h
  rintro ⟨hv', hr⟩
  obtain rfl := Option.some.inj (hv.symm.trans hv')
  exact hnot a hr

theorem Flaw.of_illTyped_handler {es : List (Value × Value)} (h : IllTyped "handler" ReadsHandler es) :
    Flaw (.mapping es) := by
  obtain @⟨v, hv, hnot⟩ := h
  by_cases htext : ∃ s, v = .text s
  · obtain ⟨s, rfl⟩ := htext
    refine .reference hv (HandlerRef.parse?_eq_none_iff.mp ?_)
    exact Option.eq_none_iff_forall_ne_some.mpr fun r hr => hnot r (.reference hr)
  · exact .handler hv (fun s hs => htext ⟨s, hs⟩) hnot

theorem flaw_iff {v : Value} : Flaw v ↔ ∀ r, ¬Describes v r := by
  constructor
  · rintro hflaw r ⟨keys, huri, hmethods, hhandler⟩
    cases hflaw with
    | notMapping h => exact h _ rfl
    | keyNotText he hkey =>
      obtain ⟨s, hs⟩ := keys _ he
      exact hkey s hs
    | missing hname h =>
      simp only [List.mem_cons, List.not_mem_nil, or_false] at hname
      rcases hname with rfl | rfl | rfl
      · exact not_hasField_of_none h _ huri
      · exact not_hasField_of_none h _ hmethods
      · exact not_hasField_of_none h _ hhandler
    | uri h => exact h.not_hasField _ huri
    | methods h => exact h.not_hasField _ hmethods
    | reference h hs =>
      obtain ⟨hv, hr⟩ := hhandler
      obtain rfl := Option.some.inj (h.symm.trans hv)
      cases hr with
      | reference hparse => cases (HandlerRef.parse?_eq_none_iff.mpr hs).symm.trans hparse
    | handler h hv hrecord => exact (IllTyped.given h hrecord).not_hasField _ hhandler
  · intro h
    by_cases hmap : ∃ es, v = .mapping es
    · obtain ⟨es, rfl⟩ := hmap
      by_cases hkeys : Config.TextKeys es
      · rcases field_cases "uri" ReadsText es with ⟨u, hu⟩ | hnone | hill
        · rcases field_cases "methods" ReadsTextList es with ⟨ms, hms⟩ | hnone | hill
          · rcases field_cases "handler" ReadsHandler es with ⟨r, hr⟩ | hnone | hill
            · exact absurd (.record hkeys hu hms hr) (h _)
            · exact .missing (by simp) hnone
            · exact .of_illTyped_handler hill
          · exact .missing (by simp) hnone
          · exact .methods hill
        · exact .missing (by simp) hnone
        · exact .uri hill
      · obtain ⟨e, he, hkey⟩ : ∃ e ∈ es, ¬∃ k, e.1 = .text k := by simpa [Config.TextKeys] using hkeys
        exact .keyNotText he (not_exists.mp hkey)
    · exact .notMapping fun es hes => hmap ⟨es, hes⟩

theorem flaw_iff_route_eq_error {v : Value} : Flaw v ↔ ∃ c, route v = .error c := by
  simp only [flaw_iff, ← route_eq_ok_iff]
  cases route v <;> simp

variable {path : Path} {index : Nat} {v : Value} {vs : List Value}

theorem routes_cons_of_ok {r : Route} (h : route v = .ok r) :
    routes path index (v :: vs) = (routes path (index + 1) vs).map (r :: ·) := by
  rw [routes, h]

theorem routes_cons_of_error {c : Cause} (h : route v = .error c) :
    routes path index (v :: vs) = .error (.invalidRoute path index c) := by
  rw [routes, h]

theorem routes_eq_ok_iff {rs : List Route} :
    routes path index vs = .ok rs ↔ List.Forall₂ Describes vs rs := by
  induction vs generalizing index rs with
  | nil => cases rs <;> simp [routes]
  | cons v vs ih =>
    cases hv : route v with
    | error c =>
      rw [routes_cons_of_error hv]
      cases rs <;> simp [← route_eq_ok_iff, hv]
    | ok r =>
      rw [routes_cons_of_ok hv, map_eq_ok_iff]
      cases rs <;> simp [← route_eq_ok_iff, hv, ih, and_comm]

/-- The items before the one that an error names all describe routes. -/
theorem routes_eq_error_iff {e : ManifestError} :
    routes path index vs = .error e ↔
      ∃ front v behind c, vs = front ++ v :: behind ∧ (∀ u ∈ front, ∃ r, Describes u r) ∧
        route v = .error c ∧ e = .invalidRoute path (index + front.length) c := by
  constructor
  · intro h
    induction vs generalizing index with
    | nil => cases h
    | cons v vs ih =>
      cases hv : route v with
      | error c =>
        rw [routes_cons_of_error hv] at h
        exact ⟨[], v, vs, c, rfl, by simp, hv, (Except.error.inj h).symm⟩
      | ok r =>
        rw [routes_cons_of_ok hv] at h
        cases hvs : routes path (index + 1) vs with
        | ok rs => simp [hvs, Except.map] at h
        | error e' =>
          obtain rfl : e' = e := by simpa [hvs, Except.map] using h
          obtain ⟨front, u, behind, c, rfl, hfront, hu, rfl⟩ := ih hvs
          refine ⟨v :: front, u, behind, c, rfl, ?_, hu, ?_⟩
          · exact List.forall_mem_cons.mpr ⟨⟨r, route_eq_ok_iff.mp hv⟩, hfront⟩
          · rw [List.length_cons, Nat.add_assoc, Nat.add_comm 1]
  · rintro ⟨front, v, behind, c, rfl, hfront, hv, rfl⟩
    induction front generalizing index with
    | nil => exact routes_cons_of_error hv
    | cons u front ih =>
      obtain ⟨⟨r, hr⟩, hfront⟩ := List.forall_mem_cons.mp hfront
      rw [List.cons_append, routes_cons_of_ok (route_eq_ok_iff.mpr hr), ih hfront, List.length_cons,
        Nat.add_assoc, Nat.add_comm 1]
      rfl

inductive Lists : Value → List Value → Prop where
  | mapping {es : List (Value × Value)} {items : List Value}
      (h : Assoc.get? (.text "routes") es = some (.list items)) : Lists (.mapping es) items

theorem items?_eq_some_iff {document : Value} {items : List Value} :
    items? document = some items ↔ Lists document items := by
  constructor
  · intro h
    cases document with
    | mapping es =>
      rw [items?] at h
      split at h
      case h_1 vs hvs =>
        obtain rfl := Option.some.inj h
        exact .mapping hvs
      case h_2 => cases h
    | _ => cases h
  · rintro ⟨h⟩
    rw [items?, h]

theorem ofDocument_of_lists {document : Value} {items : List Value} (h : Lists document items) :
    ofDocument path document = routes path 0 items := by
  rw [ofDocument, items?_eq_some_iff.mpr h]

theorem ofDocument_of_not_lists {document : Value} (h : ∀ items, ¬Lists document items) :
    ofDocument path document = .error (.noRoutes path) := by
  have hnone : items? document = none :=
    Option.eq_none_iff_forall_ne_some.mpr fun items hi => h items (items?_eq_some_iff.mp hi)
  rw [ofDocument, hnone]

theorem ofDocument_eq_ok_iff {document : Value} {rs : List Route} :
    ofDocument path document = .ok rs ↔
      ∃ items, Lists document items ∧ List.Forall₂ Describes items rs := by
  by_cases hlists : ∃ items, Lists document items
  · obtain ⟨items, h⟩ := hlists
    rw [ofDocument_of_lists h, routes_eq_ok_iff]
    refine ⟨fun hrs => ⟨items, h, hrs⟩, ?_⟩
    rintro ⟨items', h', hrs⟩
    have hsame := (items?_eq_some_iff.mpr h).symm.trans (items?_eq_some_iff.mpr h')
    exact Option.some.inj hsame ▸ hrs
  · rw [ofDocument_of_not_lists (not_exists.mp hlists)]
    exact ⟨nofun, fun ⟨items, h, _⟩ => absurd ⟨items, h⟩ hlists⟩

/-- What a document that is no manifest is refused for: the missing list, or the first item that describes no
route, by its index. -/
inductive Refusal (path : Path) (document : Value) : ManifestError → Prop where
  | noRoutes (h : ∀ items, ¬Lists document items) : Refusal path document (.noRoutes path)
  | invalidRoute {front behind : List Value} {v : Value} {i : Nat} {c : Cause}
      (h : Lists document (front ++ v :: behind)) (hi : front.length = i)
      (hfront : ∀ u ∈ front, ∃ r, Describes u r) (hv : Flaw v) (hc : route v = .error c) :
      Refusal path document (.invalidRoute path i c)

theorem ofDocument_eq_error_iff {document : Value} {e : ManifestError} :
    ofDocument path document = .error e ↔ Refusal path document e := by
  constructor
  · intro h
    by_cases hlists : ∃ items, Lists document items
    · obtain ⟨items, hitems⟩ := hlists
      rw [ofDocument_of_lists hitems] at h
      obtain ⟨front, v, behind, c, rfl, hfront, hv, rfl⟩ := routes_eq_error_iff.mp h
      exact .invalidRoute hitems (Nat.zero_add _).symm hfront (flaw_iff_route_eq_error.mpr ⟨c, hv⟩) hv
    · rw [ofDocument_of_not_lists (not_exists.mp hlists)] at h
      obtain rfl := Except.error.inj h
      exact .noRoutes (not_exists.mp hlists)
  · intro h
    cases h with
    | noRoutes h => exact ofDocument_of_not_lists h
    | @invalidRoute front behind v i c h hi hfront _ hc =>
      rw [ofDocument_of_lists h]
      exact routes_eq_error_iff.mpr ⟨front, v, behind, c, rfl, hfront, hc, by rw [Nat.zero_add, hi]⟩

theorem load_of_readFile {files : FileTree} {document : Value}
    (h : Yaml.readFile files path = .ok document) :
    load files path = (ofDocument path document).mapError .reported := by
  rw [load, h]

/-- A manifest that was read is loaded just when its document lists items that all describe routes, and each
item then gives its route. Else the missing list is reported, or the first item with a flaw; an item has a
flaw just when it describes no route. -/
theorem load_outcomes {files : FileTree} {document : Value}
    (h : Yaml.readFile files path = .ok document) :
    (∀ rs, load files path = .ok rs ↔
      ∃ items, Lists document items ∧ List.Forall₂ Describes items rs) ∧
    (∀ e, load files path = .error e ↔ ∃ m, e = .reported m ∧ Refusal path document m) ∧
    ∀ v, Flaw v ↔ ∀ r, ¬Describes v r := by
  refine ⟨fun rs => ?_, fun e => ?_, fun v => flaw_iff⟩
  · rw [load_of_readFile h, mapError_eq_ok_iff, ofDocument_eq_ok_iff]
  · rw [load_of_readFile h, mapError_eq_error_iff]
    exact exists_congr fun m => and_comm.trans (and_congr eq_comm ofDocument_eq_error_iff)

def twoItems : FileTree :=
  ⟨["w"], [(["w", "routes.yaml"], .file (Text.encode
    "routes: [\x7buri: /a, methods: [], handler: 'm:f'\x7d, \x7buri: /b, methods: 1\x7d]\n"))]⟩

theorem load_outcomes_secondItem :
    ∃ document front v behind, Yaml.readFile twoItems (.ofText "routes.yaml") = .ok document ∧
      Lists document (front ++ v :: behind) ∧ front.length = 1 ∧ Flaw v := by
  have hload : load twoItems (.ofText "routes.yaml") = .error (.reported (.invalidRoute
      (.ofText "routes.yaml") 1 (.invalid [⟨["methods"], .notList⟩, ⟨["handler"], .missing⟩]))) := by
    decide +kernel
  cases hread : Yaml.readFile twoItems (.ofText "routes.yaml") with
  | error e =>
    rw [load, hread] at hload
    cases e with
    | document e => cases e <;> cases hload
    | _ => cases hload
  | ok document =>
    obtain ⟨m, hm, hrefusal⟩ := ((load_outcomes hread).2.1 _).mp hload
    obtain rfl := LoadError.reported.inj hm
    cases hrefusal with
    | invalidRoute h hi _ hv _ => exact ⟨document, _, _, _, rfl, h, hi, hv⟩

end Manifest
end RouteDoc
