import RouteDoc.Proofs.Batch.Failure
import RouteDoc.Proofs.CommandLine.Output
import RouteDoc.Proofs.Extraction.Readable
import RouteDoc.Proofs.Loading
/-! Runs of the command line. A run that fails at its configuration, its manifest or a route leaves all
files as they were; every other run that can write its output lists in it a descriptor of each route,
in order. -/
namespace RouteDoc.CommandLine

namespace Request
variable {r : Request} {env : Environment}

def extractor (r : Request) (env : Environment) (c : Config) : Extractor :=
  .make (r.adjust c) (Response.standard env.room.read env.files (r.adjust c).responseDir) env.room.shown

def inspect (r : Request) (env : Environment) : Inspector InspectionFailure :=
  inspector (env.modules (Introspection.addRoots env.files r.appDirs []))

/-- The failure that a run meets first, in the order configuration, manifest, routes. -/
inductive Stops (r : Request) (env : Environment) : Failure → Prop where
  | config {e : Config.LoadError} (h : Config.loadOptional env.files r.config = .error e) :
      Stops r env (.config e)
  | manifest {c : Config} {e : Manifest.LoadError}
      (hc : Config.loadOptional env.files r.config = .ok c)
      (h : Manifest.load env.files r.manifest = .error e) : Stops r env (.manifest e)
  | route {c : Config} {routes : List Route} {e : RouteError InspectionFailure}
      (hc : Config.loadOptional env.files r.config = .ok c)
      (hroutes : Manifest.load env.files r.manifest = .ok routes)
      (h : routes.findSome? ((r.extractor env c).failure? (r.inspect env)) = some e) :
      Stops r env (.route e)

theorem blind_extractor (c : Config) : Response.Blind (r.extractor env c).resolver :=
  Response.standard_blind _ _ _

theorem load_of_ok {c : Config} {routes : List Route}
    (hc : Config.loadOptional env.files r.config = .ok c)
    (hroutes : Manifest.load env.files r.manifest = .ok routes) :
    r.load env.files = .ok (r.adjust c, routes) := by
  simp only [load, hc, hroutes]

theorem result_extract (c : Config) (routes : List Route) :
    (r.extract env (r.adjust c) routes).result =
      ((r.extractor env c).extractAll (r.inspect env) (r.adjust c).workers routes).1.result := rfl

/-- A run that stops leaves the files as they were. -/
theorem run_of_stops {e : Failure} (h : r.Stops env e) :
    (r.run env).exit = .failed e ∧ (r.run env).files = env.files := by
  cases h with
  | config h => simp [run, load, h]
  | manifest hc h => simp [run, load, hc, h]
  | route hc hroutes h =>
    rw [← Extractor.extractAll_eq_error_iff (blind_extractor _), ← result_extract] at h
    simp only [run, load_of_ok hc hroutes, h, and_self]

end Request

theorem run_of_arguments {env : Environment} {args : List String} {r : Request}
    (h : Command.ofArguments? env.files args = some (.extract r)) : run env args = r.run env := by
  rw [run, h]

def pairEnvironment (routes : String) : Environment where
  files := ⟨["w"], [
    (["w", "routes.yaml"], .file (Text.encode ("routes:\n" ++ routes))),
    (["w", "out.json"], .file (Text.encode "old"))]⟩
  modules := fun _ => [{ name := "m", members := [
    ("f", .function (some "F.") [] (.returns (.value .null))),
    ("g", .function (some "G.\n\n@queryParam page") [] (.returns (.value .null)))] }]

def pairArguments : List String :=
  ["extract", "routes.yaml", "-o", "out.json", "--workers", "2"]

def pairRequest : Request :=
  { manifest := .ofText "routes.yaml", output := .ofText "out.json", workers := some 2 }

theorem message?_manifest_iff {word : Wording} {files : FileTree} {path : Path}
    {e : Manifest.LoadError} (h : Manifest.load files path = .error e) :
    (∃ detail, (Failure.manifest e).message? word = some (path.text ++ ": " ++ detail)) ↔
      Answered .reported (Manifest.load files path) := by
  rw [h, answered_error_iff]
  constructor
  · rintro ⟨detail, hmessage⟩
    cases e with
    | reported e => exact ⟨e, rfl⟩
    | _ => cases hmessage
  · rintro ⟨e, rfl⟩
    obtain ⟨detail, hdetail⟩ := e.message_eq word
    rw [Manifest.path_of_load h] at hdetail
    exact ⟨detail, congrArg some hdetail⟩

/-- The bytes of a manifest decide whether it is answered, with its routes or with a message that names
it. A run breaks off at one that is not. -/
theorem manifest_answered_iff (word : Wording) {env : Environment} {path : Path}
    {bytes : List UInt8} (h : env.files.readBytes path = .ok bytes) :
    (Answered .reported (Manifest.load env.files path) ↔ Manifest.Readable bytes) ∧
      ∀ args r c e, Command.ofArguments? env.files args = some (.extract r) →
        r.manifest = path → Config.loadOptional env.files r.config = .ok c →
        Manifest.load env.files path = .error e →
        (run env args).exit = .failed (.manifest e) ∧ (run env args).files = env.files ∧
          ((∃ detail, (Failure.manifest e).message? word = some (path.text ++ ": " ++ detail)) ↔
            Manifest.Readable bytes) := by
  have hanswered := Manifest.answered_load_iff h
  refine ⟨hanswered, fun args r c e hargs hpath hc he => ?_⟩
  obtain ⟨hexit, hfiles⟩ := Request.run_of_stops (.manifest hc (hpath ▸ he))
  rw [run_of_arguments hargs]
  exact ⟨hexit, hfiles, (message?_manifest_iff he).trans hanswered⟩

/-- A manifest without a list is answered. -/
theorem manifest_answered_iff_noRoutes :
    (pairEnvironment "").files.readBytes pairRequest.manifest = .ok (Text.encode "routes:\n") ∧
      ∃ e, Manifest.load (pairEnvironment "").files pairRequest.manifest = .error e ∧
        (run (pairEnvironment "") pairArguments).exit = .failed (.manifest e) ∧
        ∃ detail, (Failure.manifest e).message? Cause.describe =
          some (pairRequest.manifest.text ++ ": " ++ detail) := by
  have hbytes : (pairEnvironment "").files.readBytes pairRequest.manifest =
      .ok (Text.encode "routes:\n") := by decide +kernel
  have hload : Manifest.load (pairEnvironment "").files pairRequest.manifest =
      .error (.reported (.noRoutes pairRequest.manifest)) := by decide +kernel
  have hargs : Command.ofArguments? (pairEnvironment "").files pairArguments =
      some (.extract pairRequest) := by decide +kernel
  obtain ⟨hanswered, hrun⟩ := manifest_answered_iff Cause.describe hbytes
  obtain ⟨hexit, -, hmessage⟩ := hrun _ _ _ _ hargs rfl rfl hload
  exact ⟨hbytes, _, hload, hexit, hmessage.mpr (hanswered.mp (hload ▸ .reported _))⟩

def manifestFiles (bytes : List UInt8) : FileTree := ⟨["w"], [(["w", "routes.yaml"], .file bytes)]⟩

/-- Neither bytes that are not UTF-8 nor a date that there is not are answered. -/
theorem manifest_unanswered :
    (manifestFiles [0xff]).readBytes (.ofText "routes.yaml") = .ok [0xff] ∧
      ¬Answered .reported (Manifest.load (manifestFiles [0xff]) (.ofText "routes.yaml")) ∧
      ¬Answered .reported (Manifest.load (manifestFiles (Text.encode "routes: [2001-99-99]\n"))
        (.ofText "routes.yaml")) := by
  have hbytes : Manifest.load (manifestFiles [0xff]) (.ofText "routes.yaml") = .error .notUtf8 := by
    decide +kernel
  have hdate : Manifest.load (manifestFiles (Text.encode "routes: [2001-99-99]\n"))
      (.ofText "routes.yaml") = .error (.scalar .impossibleDate) := by decide +kernel
  rw [hbytes, hdate]
  exact ⟨by decide +kernel, by simp, by simp⟩

end RouteDoc.CommandLine
