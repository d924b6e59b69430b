import RouteDoc.Config.File
import RouteDoc.Manifest
import RouteDoc.Proofs.FileTree
import RouteDoc.Proofs.Schema
/-! Loading configurations and manifests. Most failures are reported with a message; the theorems say
which are not, which documents are configurations, and that a message names the manifest. -/
namespace RouteDoc

inductive Answered {δ ε α : Type} (report : ε → δ) : Except δ α → Prop where
  | ok (a : α) : Answered report (.ok a)
  | reported (e : ε) : Answered report (.error (report e))

@[simp] theorem answered_error_iff {δ ε α : Type} {report : ε → δ} {d : δ} :
    Answered report (.error d : Except δ α) ↔ ∃ e, d = report e := by
  constructor
  · intro h
    cases h with
    | reported e => exact ⟨e, rfl⟩
  · rintro ⟨e, rfl⟩
    exact .reported e

namespace Config
open Schema

inductive ReadsPath : Value → Path → Prop where
  | text (s : String) : ReadsPath (.text s) (.ofText s)

theorem path_eq_ok_iff {location : List String} {v : Value} {p : Path} :
    path location v = .ok p ↔ ReadsPath v p := by
  constructor
  · intro h
    cases v with
    | text s =>
      obtain rfl := Except.ok.inj h
      exact .text s
    | _ => simp [path, fail] at h
  · rintro ⟨s⟩
    rfl

structure ReadsWorkers (v : Value) (n : Int) : Prop where
  integer : ReadsInteger v n
  pos : 1 ≤ n

theorem atLeastOne_eq_ok_iff {location : List String} {v : Value} {n : Int} :
    atLeastOne location v = .ok n ↔ ReadsWorkers v n := by
  have hiff : atLeastOne location v = .ok n ↔ integer location v = .ok n ∧ 1 ≤ n := by
    rw [atLeastOne]
    cases integer location v with
    | error vs => simp
    | ok m =>
      by_cases hm : m < 1
      · have hnot : m = n → ¬1 ≤ n := by omega
        simpa [hm, fail] using hnot
      · have hsame : m = n ↔ m = n ∧ 1 ≤ n := by omega
        simpa [hm] using hsame
  rw [hiff, integer_eq_ok_iff]
  exact ⟨fun h => ⟨h.1, h.2⟩, fun h => ⟨h.integer, h.pos⟩⟩

structure Describes (fields : List (String × Value)) (c : Config) : Prop where
  headers : FieldReads "headers" [] ReadsTexts fields c.headers
  defaultGroup : FieldReads "default_group" "general" ReadsText fields c.defaultGroup
  responseDir : FieldReads "response_file_dir" none (ReadsOptional ReadsPath) fields c.responseDir
  workers : FieldReads "workers" 1 ReadsWorkers fields c.workers
  seed : FieldReads "seed" none (ReadsOptional ReadsInteger) fields c.seed

def checks (fields : List (String × Value)) :
    Checked (List (String × String) × String × Option Path × Int × Option Int) :=
  both (field "headers" [] textMapping fields) <|
    both (field "default_group" "general" text fields) <|
      both (field "response_file_dir" none (fun l => optional (path l)) fields) <|
        both (field "workers" 1 atLeastOne fields)
          (field "seed" none (fun l => optional (integer l)) fields)

theorem ofFields_eq (fields : List (String × Value)) :
    ofFields fields = (checks fields).map fun (headers, group, dir, workers, seed) =>
      ⟨headers, group, dir, workers, seed⟩ := by
  rw [ofFields, ← checks]
  cases checks fields <;> rfl

theorem ofFields_eq_ok_iff {fields : List (String × Value)} {c : Config} :
    ofFields fields = .ok c ↔ Describes fields c := by
  have hchecks : ofFields fields = .ok c ↔
      checks fields = .ok (c.headers, c.defaultGroup, c.responseDir, c.workers, c.seed) := by
    rw [ofFields_eq]
    cases checks fields with
    | error vs => simp [Except.map]
    | ok t => cases c; simp [Except.map, Prod.ext_iff]
  rw [hchecks, checks, both_eq_ok_iff, both_eq_ok_iff, both_eq_ok_iff, both_eq_ok_iff,
    field_eq_ok_iff fun _ _ => textMapping_eq_ok_iff, field_eq_ok_iff fun _ _ => text_eq_ok_iff,
    field_eq_ok_iff fun _ _ => optional_eq_ok_iff fun _ _ => path_eq_ok_iff,
    field_eq_ok_iff fun _ _ => atLeastOne_eq_ok_iff,
    field_eq_ok_iff fun _ _ => optional_eq_ok_iff fun _ _ => integer_eq_ok_iff]
  exact ⟨fun ⟨h, g, d, w, s⟩ => ⟨h, g, d, w, s⟩,
    fun h => ⟨h.headers, h.defaultGroup, h.responseDir, h.workers, h.seed⟩⟩

def fieldNames : List String :=
  ["headers", "default_group", "response_file_dir", "workers", "seed"]

def InField (v : Violation) : Prop := ∃ name ∈ fieldNames, [name] <+: v.location

theorem located_path (location : List String) (v : Value) : Located location (path location v) := by
  cases v with
  | text s => exact located_ok location _
  | _ => exact located_fail location _

theorem located_atLeastOne (location : List String) (v : Value) :
    Located location (atLeastOne location v) := by
  have hinteger := located_integer location v
  rw [atLeastOne]
  cases hv : integer location v with
  | error e => exact fun vs hvs => hinteger vs (hv.trans hvs)
  | ok n =>
    dsimp only
    by_cases hn : n < 1
    · rw [if_pos hn]
      exact located_fail location _
    · rw [if_neg hn]
      exact located_ok location n

/-- Of fields that make no configuration something is said to be wrong, and only in the fields that
a configuration has. -/
theorem blames_ofFields (fields : List (String × Value)) : Blames InField (ofFields fields) := by
  have hin {α : Type} {name : String} {c : Checked α} (hname : name ∈ fieldNames)
      (h : Located [name] c) : Blames InField c := h.mono fun v hv => ⟨name, hname, hv⟩
  rw [ofFields_eq, checks]
  refine Blames.map (.both (hin ?_ (located_field (located_textMapping _) fields)) (.both
    (hin ?_ (located_field (located_text _) fields)) (.both
      (hin ?_ (located_field (located_optional (located_path _)) fields)) (.both
        (hin ?_ (located_field (located_atLeastOne _) fields))
        (hin ?_ (located_field (located_optional (located_integer _)) fields)))))) _
  all_goals decide

/-- What the document of a file in a directory says of a configuration. One that does not hold says
nothing; all others have to be mappings with texts for keys. -/
inductive Documents (dir : Path) : Value → Config → Prop where
  | unset {v : Value} (h : v.holds = false) : Documents dir v {}
  | fields {fields : List (String × Value)} {c : Config} (h : Describes fields c) :
      Documents dir (.mapping (fields.map fun f => (.text f.1, f.2))) (c.placeIn dir)

theorem ofDocument_of_not_holds {path : Path} {v : Value} (h : v.holds = false) :
    ofDocument path v = .ok {} := by
  rw [ofDocument, h]
  rfl

theorem ofDocument_mapping (path : Path) (es : List (Value × Value)) :
    ofDocument path (.mapping es) =
      match textKeyed? es with
      | none => .error .keyNotText
      | some fields =>
        match ofFields fields with
        | .error vs => .error (.reported (.invalid path vs))
        | .ok c => .ok (c.placeIn path.parent) := by
  cases es <;> rfl

theorem ofDocument_of_notMapping {path : Path} {v : Value} (hv : v.holds = true)
    (h : ∀ es, v ≠ .mapping es) : ofDocument path v = .error (.reported (.notMapping path)) := by
  rw [ofDocument, hv]
  cases v with
  | mapping es => exact absurd rfl (h es)
  | _ => rfl

def TextKeys (es : List (Value × Value)) : Prop := ∀ e ∈ es, ∃ k, e.1 = .text k

theorem textKeys_iff {es : List (Value × Value)} :
    TextKeys es ↔ ∃ fields, textKeyed? es = some fields := by
  simp only [textKeyed?_eq_some_iff]
  constructor
  · intro h
    induction es with
    | nil => exact ⟨[], rfl⟩
    | cons e es ih =>
      obtain ⟨⟨k, hk⟩, hes⟩ := List.forall_mem_cons.mp h
      obtain ⟨fields, rfl⟩ := ih hes
      exact ⟨(k, e.2) :: fields, by rw [List.map_cons, ← hk]⟩
  · rintro ⟨fields, rfl⟩ e he
    obtain ⟨f, -, rfl⟩ := List.mem_map.mp he
    exact ⟨f.1, rfl⟩

theorem ofDocument_eq_ok_iff {path : Path} {v : Value} {c : Config} :
    ofDocument path v = .ok c ↔ Documents path.parent v c := by
  constructor
  · intro h
    cases hv : v.holds with
    | false =>
      obtain rfl := Except.ok.inj ((ofDocument_of_not_holds hv).symm.trans h)
      exact .unset hv
    | true =>
      by_cases hmap : ∃ es, v = .mapping es
      · obtain ⟨es, rfl⟩ := hmap
        rw [ofDocument_mapping] at h
        cases hes : textKeyed? es with
        | none => simp [hes] at h
        | some fields =>
          obtain rfl := textKeyed?_eq_some_iff.mp hes
          cases hc : ofFields fields with
          | error vs => simp [hes, hc] at h
          | ok c' =>
            obtain rfl : c'.placeIn path.parent = c := by simpa [hes, hc] using h
            exact .fields (ofFields_eq_ok_iff.mp hc)
      · rw [ofDocument_of_notMapping hv fun es hes => hmap ⟨es, hes⟩] at h
        cases h
  · intro h
    cases h with
    | unset hv => exact ofDocument_of_not_holds hv
    | fields h =>
      rw [ofDocument_mapping, textKeyed?_eq_some_iff.mpr rfl]
      simp only [ofFields_eq_ok_iff.mpr h]

/-- A document is refused without a message only if it is a mapping with a key that is no text. -/
theorem answered_ofDocument_iff {path : Path} {v : Value} :
    Answered .reported (ofDocument path v) ↔ ∀ es, v = .mapping es → TextKeys es := by
  by_cases hmap : ∃ es, v = .mapping es
  · obtain ⟨es, rfl⟩ := hmap
    have hkeys : (∀ es', Value.mapping es = .mapping es' → TextKeys es') ↔ TextKeys es :=
      ⟨fun h => h es rfl, fun h es' he => Value.mapping.inj he ▸ h⟩
    rw [hkeys, textKeys_iff, ofDocument_mapping]
    cases textKeyed? es with
    | none => exact ⟨nofun, fun ⟨fields, h⟩ => nomatch h⟩
    | some fields =>
      refine ⟨fun _ => ⟨fields, rfl⟩, fun _ => ?_⟩
      dsimp only
      cases ofFields fields with
      | error vs => exact .reported _
      | ok c => exact .ok _
  · refine ⟨fun _ es hes => absurd ⟨es, hes⟩ hmap, fun _ => ?_⟩
    cases hv : v.holds with
    | false => rw [ofDocument_of_not_holds hv]; exact .ok _
    | true =>
      rw [ofDocument_of_notMapping hv fun es hes => hmap ⟨es, hes⟩]
      exact .reported _

theorem readFile_eq_zeroCharacter_iff {files : FileTree} {path : Path} :
    Yaml.readFile files path = .error (.file .zeroCharacter) ↔ '\x00' ∈ path.text.toList := by
  rw [← FileTree.readBytes_eq_zeroCharacter_iff (t := files), Yaml.readFile]
  cases files.readBytes path with
  | error e => simp
  | ok bytes =>
    dsimp only
    cases Text.ofFile? bytes with
    | none => simp
    | some text =>
      dsimp only
      cases Yaml.read text <;> simp [Except.mapError]

/-- A file whose configuration is loaded or refused with a message: its path can be asked for, all its
scalars have values, and the keys of a mapping are texts. -/
structure Loadable (files : FileTree) (path : Path) : Prop where
  noZero : '\x00' ∉ path.text.toList
  scalars : ∀ e, Yaml.readFile files path = .error (.document e) → e = .malformed
  keys : ∀ es, Yaml.readFile files path = .ok (.mapping es) → TextKeys es

theorem answered_load_of_error {files : FileTree} {path : Path} {e : Yaml.FileReadError}
    (h : Yaml.readFile files path = .error e) : Answered .reported (load files path) ↔
      e ≠ .file .zeroCharacter ∧ ∀ scalar, e = .document scalar → scalar = .malformed := by
  rw [load, h]
  cases e with
  | file e => cases e <;> simp
  | notUtf8 => simp
  | document e => cases e <;> simp

theorem answered_load_iff {files : FileTree} {path : Path} :
    Answered .reported (load files path) ↔ Loadable files path := by
  have hzero : Yaml.readFile files path = .error (.file .zeroCharacter) ↔
      '\x00' ∈ path.text.toList := readFile_eq_zeroCharacter_iff
  cases hread : Yaml.readFile files path with
  | ok v =>
    rw [load, hread]
    refine answered_ofDocument_iff.trans ⟨fun h => ⟨?_, ?_, ?_⟩, fun h es hes => ?_⟩
    · simp [← hzero, hread]
    · simp [hread]
    · exact fun es hes => h es (Except.ok.inj (hread.symm.trans hes))
    · exact h.keys es (hes ▸ hread)
  | error e =>
    rw [answered_load_of_error hread]
    constructor
    · rintro ⟨hfile, hscalar⟩
      refine ⟨?_, fun scalar hs => hscalar scalar (Except.error.inj (hread.symm.trans hs)), ?_⟩
      · simpa [← hzero, hread] using hfile
      · simp [hread]
    · intro h
      refine ⟨?_, fun scalar hs => h.scalars scalar (hs ▸ hread)⟩
      rintro rfl
      exact h.noZero (hzero.mp hread)

theorem load_eq_ok_iff {files : FileTree} {path : Path} {c : Config} :
    load files path = .ok c ↔
      ∃ v, Yaml.readFile files path = .ok v ∧ Documents path.parent v c := by
  simp only [← ofDocument_eq_ok_iff]
  rw [load]
  cases Yaml.readFile files path with
  | ok v => simp
  | error e =>
    cases e with
    | file e => cases e <;> simp
    | notUtf8 => simp
    | document e => cases e <;> simp

theorem ofDocument_invalid {path place : Path} {v : Value} {vs : List Violation}
    (h : ofDocument path v = .error (.reported (.invalid place vs))) :
    place = path ∧ ∃ fields, ofFields fields = .error vs := by
  cases hv : v.holds with
  | false => cases (ofDocument_of_not_holds hv).symm.trans h
  | true =>
    by_cases hmap : ∃ es, v = .mapping es
    · obtain ⟨es, rfl⟩ := hmap
      rw [ofDocument_mapping] at h
      cases hes : textKeyed? es with
      | none => simp [hes] at h
      | some fields =>
        cases hc : ofFields fields with
        | ok c => simp [hes, hc] at h
        | error ws =>
          obtain ⟨rfl, rfl⟩ : path = place ∧ ws = vs := by simpa [hes, hc] using h
          exact ⟨rfl, fields, hc⟩
    · cases (ofDocument_of_notMapping hv fun es hes => hmap ⟨es, hes⟩).symm.trans h

theorem load_invalid {files : FileTree} {path place : Path} {vs : List Violation}
    (h : load files path = .error (.reported (.invalid place vs))) :
    place = path ∧ ∃ fields, ofFields fields = .error vs := by
  rw [load] at h
  cases hread : Yaml.readFile files path with
  | ok v =>
    rw [hread] at h
    exact ofDocument_invalid h
  | error e =>
    rw [hread] at h
    cases e with
    | file e => cases e <;> cases h
    | notUtf8 => cases h
    | document e => cases e <;> cases h

/-- A configuration is loaded or refused with a message, but for a path with the character zero, a
scalar without a value and a key that is no text. It is loaded when the document does not hold or is a
mapping whose fields all read, and an invalid field is blamed by its name. -/
theorem load_answered_iff (files : FileTree) (path : Path) :
    (Answered .reported (load files path) ↔ Loadable files path) ∧
      (∀ c, load files path = .ok c ↔
        ∃ v, Yaml.readFile files path = .ok v ∧ Documents path.parent v c) ∧
      ∀ place vs, load files path = .error (.reported (.invalid place vs)) →
        place = path ∧ vs ≠ [] ∧ ∀ v ∈ vs, InField v := by
  refine ⟨answered_load_iff, fun c => load_eq_ok_iff, fun place vs h => ?_⟩
  obtain ⟨hplace, fields, hfields⟩ := load_invalid h
  exact ⟨hplace, blames_ofFields fields vs hfields⟩

def configFiles (content : String) : FileTree :=
  ⟨["w"], [(["w", "config.yaml"], .file (Text.encode content))]⟩

def configPath : Path := .ofText "config.yaml"

theorem load_answered_iff_workers :
    ∃ vs, load (configFiles "workers: 0\nseed: x\n") configPath =
        .error (.reported (.invalid configPath vs)) ∧ ∀ v ∈ vs, InField v := by
  have h : load (configFiles "workers: 0\nseed: x\n") configPath = .error (.reported
      (.invalid configPath [⟨["workers"], .tooSmall⟩, ⟨["seed"], .notIntegerText⟩])) := by
    decide +kernel
  exact ⟨_, h, ((load_answered_iff _ _).2.2 _ _ h).2.2⟩

/-- A number as a key ends loading without a message, and an empty list is taken for a configuration. -/
theorem load_numberKey :
    ¬Answered .reported (load (configFiles "1: a\n") configPath) ∧
      (Yaml.readFile (configFiles "[]\n") configPath).map Value.typeName = .ok "list" ∧
      load (configFiles "[]\n") configPath = .ok {} := by
  have hkey : load (configFiles "1: a\n") configPath = .error .keyNotText := by decide +kernel
  rw [hkey]
  exact ⟨by simp, by decide +kernel, by decide +kernel⟩

end Config

def ManifestError.path : ManifestError → Path
  | .notYaml path | .noRoutes path | .invalidRoute path _ _ => path

theorem ManifestError.message_eq (word : Wording) (e : ManifestError) :
    ∃ detail, e.message word = e.path.text ++ ": " ++ detail := by
  cases e with
  | notYaml path => exact ⟨_, rfl⟩
  | noRoutes path =>
    have hsplit : ": expected a top-level 'routes' list" =
        ": " ++ "expected a top-level 'routes' list" := by decide
    exact ⟨_, by rw [message, hsplit, ← String.append_assoc, ManifestError.path]⟩
  | invalidRoute path i c =>
    have hsplit : ": route #" = ": " ++ "route #" := by decide
    refine ⟨"route #" ++ toString i ++ " is invalid: " ++ word c, ?_⟩
    rw [message, hsplit, ManifestError.path]
    simp only [String.append_assoc]

namespace Manifest

theorem path_of_routes {path : Path} {index : Nat} {vs : List Value} {e : ManifestError}
    (h : routes path index vs = .error e) : e.path = path := by
  induction vs generalizing index with
  | nil => cases h
  | cons v vs ih =>
    rw [routes] at h
    cases hv : route v with
    | error c =>
      rw [hv] at h
      cases h
      rfl
    | ok r =>
      simp only [hv] at h
      cases hvs : routes path (index + 1) vs with
      | error e' =>
        obtain rfl : e' = e := by simpa [hvs, Except.map] using h
        exact ih hvs
      | ok rs => simp [hvs, Except.map] at h

theorem path_of_ofDocument {path : Path} {v : Value} {e : ManifestError}
    (h : ofDocument path v = .error e) : e.path = path := by
  rw [ofDocument] at h
  cases hitems : items? v with
  | none =>
    rw [hitems] at h
    cases h
    rfl
  | some vs =>
    rw [hitems] at h
    exact path_of_routes h

/-- An error with a message is about the file that was asked for. -/
theorem path_of_load {files : FileTree} {path : Path} {e : ManifestError}
    (h : load files path = .error (.reported e)) : e.path = path := by
  rw [load] at h
  cases hread : Yaml.readFile files path with
  | ok v =>
    simp only [hread] at h
    cases hv : ofDocument path v with
    | ok rs => simp [hv, Except.mapError] at h
    | error e' =>
      obtain rfl : e' = e := by simpa [hv, Except.mapError] using h
      exact path_of_ofDocument hv
  | error failure =>
    rw [hread] at h
    cases failure with
    | document e' =>
      cases e' <;> cases h
      rfl
    | _ => cases h

/-- Bytes that are read up to the errors of YAML itself: they are UTF-8, and every scalar has a
value. -/
def Readable (bytes : List UInt8) : Prop :=
  ∃ text, Text.ofFile? bytes = some text ∧ ∀ e, Yaml.read text = .error e → e = .malformed

/-- Whether a manifest is answered depends on its bytes alone. -/
theorem answered_load_iff {files : FileTree} {path : Path} {bytes : List UInt8}
    (h : files.readBytes path = .ok bytes) :
    Answered .reported (load files path) ↔ Readable bytes := by
  rw [load, Yaml.readFile, h, Readable]
  dsimp only
  cases Text.ofFile? bytes with
  | none => simp
  | some text =>
    dsimp only
    cases hread : Yaml.read text with
    | ok v =>
      have hanswered : Answered .reported ((ofDocument path v).mapError LoadError.reported) := by
        cases ofDocument path v with
        | ok rs => exact .ok rs
        | error e => exact .reported e
      refine ⟨fun _ => ⟨text, rfl, ?_⟩, fun _ => hanswered⟩
      simp [hread]
    | error e => cases e <;> simp [hread, Except.mapError]

end Manifest
end RouteDoc
