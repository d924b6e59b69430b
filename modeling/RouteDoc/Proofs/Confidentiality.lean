import RouteDoc.Proofs.Extraction
/-! Credentials stay out of public documentation. Extracting a public route gives the same outcome
under configurations that differ in credentials only, since neither the headers of the descriptor
nor the response depend on them; an authenticated route shows all headers. -/
namespace RouteDoc
open Text

def IsCredential (header : String × String) : Prop := lower header.1 = "authorization"

instance (header : String × String) : Decidable (IsCredential header) :=
  inferInstanceAs (Decidable (lower header.1 = "authorization"))

def IsAuthMark (t : Tag) : Prop := lower t.name = "authenticated"

instance (t : Tag) : Decidable (IsAuthMark t) :=
  inferInstanceAs (Decidable (lower t.name = "authenticated"))

/-- Headers that differ in credentials only: these may come and go anywhere. -/
inductive SamePublic : List (String × String) → List (String × String) → Prop where
  | nil : SamePublic [] []
  | keep {l m : List (String × String)} (header : String × String) (h : SamePublic l m) :
      SamePublic (header :: l) (header :: m)
  | left {l m : List (String × String)} {header : String × String} (hc : IsCredential header)
      (h : SamePublic l m) : SamePublic (header :: l) m
  | right {l m : List (String × String)} {header : String × String} (hc : IsCredential header)
      (h : SamePublic l m) : SamePublic l (header :: m)

structure Config.SamePublic (c c' : Config) : Prop where
  headers : RouteDoc.SamePublic c.headers c'.headers
  others : c' = { c with headers := c'.headers }

def Extractor.usual (shown read : Nat) (config : Config) (files : FileTree) (s : Synthesizer) :
    Extractor :=
  { make config (Response.standard read files config.responseDir) shown with synthesizer := s }

theorem isAuthenticated_iff {tags : List Tag} :
    isAuthenticated tags = true ↔ ∃ t ∈ tags, IsAuthMark t := by
  simp [isAuthenticated, IsAuthMark]

theorem applyHeaders_false (headers : List (String × String)) :
    applyHeaders headers false = headers.filter fun h => lower h.1 != "authorization" := rfl

theorem mem_applyHeaders_false {headers : List (String × String)} {h : String × String} :
    h ∈ applyHeaders headers false ↔ h ∈ headers ∧ ¬IsCredential h := by
  simp [applyHeaders_false, IsCredential]

/-- A public route shows the same headers whatever the credentials are. -/
theorem SamePublic.applyHeaders_eq {l m : List (String × String)} (h : SamePublic l m) :
    applyHeaders l false = applyHeaders m false := by
  have hcons (header : String × String) (l : List (String × String)) :
      applyHeaders (header :: l) false = applyHeaders [header] false ++ applyHeaders l false := by
    rw [applyHeaders_false, applyHeaders_false, applyHeaders_false, ← List.filter_append]
    rfl
  have hcut {header : String × String} (hc : IsCredential header) :
      applyHeaders [header] false = [] := by
    have hname : lower header.1 = "authorization" := hc
    simp [applyHeaders_false, hname]
  induction h with
  | nil => rfl
  | @keep l m header _ ih => rw [hcons header l, hcons header m, ih]
  | @left l m header hc _ ih => rw [hcons header l, hcut hc, ih, List.nil_append]
  | @right l m header hc _ ih => rw [hcons header m, hcut hc, ih, List.nil_append]

namespace Extractor
variable {shown read : Nat} {config config' : Config} {files : FileTree} {s : Synthesizer}
  {route : Route} {entity : Entity}

theorem conclude_usual (h : config.SamePublic config')
    (hpublic : isAuthenticated (Comment.ofDocstring entity.docstring).tags = false)
    (ps : List (Parameter Value)) :
    (usual shown read config files s).conclude route entity ps =
      (usual shown read config' files s).conclude route entity ps := by
  have hheaders := h.headers.applyHeaders_eq
  have hdir : config'.responseDir = config.responseDir := by rw [h.others]
  have hgroup : config'.defaultGroup = config.defaultGroup := by rw [h.others]
  have hresolved (body query : List (String × Parameter Value)) :=
    Response.standard_congr read files config.responseDir route
      (Comment.ofDocstring entity.docstring).tags config config' body body query query
  simp only [conclude, assemble, usual, make, hpublic, hheaders, hdir, hgroup, hresolved]

theorem headers_of_conclude {x : Extractor} {ps : List (Parameter Value)} {d : Descriptor}
    (h : (x.conclude route entity ps).result = .ok d) :
    d.headers = applyHeaders x.config.headers
      (isAuthenticated (Comment.ofDocstring entity.docstring).tags) := by
  obtain ⟨t, h⟩ := assemble_of_conclude h
  simp only [assemble] at h
  split at h
  case h_1 => cases h
  case h_2 =>
    cases h
    rfl

/-- Credentials make no difference to a public route and are not shown for it; an authenticated
route shows the headers of the configuration as they are. -/
theorem extract_confidential (h : config.SamePublic config') (shown read : Nat) (files : FileTree)
    (s : Synthesizer) (route : Route) (entity : Entity) :
    ((∀ t ∈ (Comment.ofDocstring entity.docstring).tags, ¬IsAuthMark t) →
      ((usual shown read config files s).extract route entity).1 =
          ((usual shown read config' files s).extract route entity).1 ∧
        ∀ d, ((usual shown read config files s).extract route entity).1.result = .ok d →
          ∀ header ∈ d.headers, ¬IsCredential header) ∧
    ((∃ t ∈ (Comment.ofDocstring entity.docstring).tags, IsAuthMark t) →
      ∀ d, ((usual shown read config files s).extract route entity).1.result = .ok d →
        d.headers = config.headers) := by
  simp only [extract_eq]
  refine ⟨fun hpublic => ?_, fun hmark d hd => ?_⟩
  · have hoff : isAuthenticated (Comment.ofDocstring entity.docstring).tags = false := by
      rw [Bool.eq_false_iff, ne_eq, isAuthenticated_iff]
      rintro ⟨t, ht, hmark⟩
      exact hpublic t ht hmark
    refine ⟨conclude_usual h hoff _, fun d hd header hheader => ?_⟩
    rw [headers_of_conclude hd, hoff] at hheader
    exact (mem_applyHeaders_false.mp hheader).2
  · rw [headers_of_conclude hd, isAuthenticated_iff.mpr hmark]
    rfl

def privateConfig : Config where
  headers := [("AUTHORIZATION", "Basic x"), ("Accept", "text/plain"), ("Authorization", "Bearer y")]

def strangerConfig : Config where
  headers := [("Accept", "text/plain"), ("authorization", "Bearer z")]

theorem privateConfig_samePublic : privateConfig.SamePublic strangerConfig where
  headers := .left (by decide) (.keep _ (.left (by decide) (.right (by decide) .nil)))
  others := rfl

/-- An untagged route keeps the credentials back, and a route with a mark in capitals shows them. -/
theorem extract_confidential_stranger :
    privateConfig.SamePublic strangerConfig ∧
      ((usual 900 900 privateConfig ⟨[], []⟩ {}).extract ⟨"/a", ["GET"], ⟨"app", "a"⟩⟩
          { docstring := some "Open" }).1 =
        ((usual 900 900 strangerConfig ⟨[], []⟩ {}).extract ⟨"/a", ["GET"], ⟨"app", "a"⟩⟩
          { docstring := some "Open" }).1 ∧
      ∀ d, ((usual 900 900 privateConfig ⟨[], []⟩ {}).extract ⟨"/b", ["GET"], ⟨"app", "b"⟩⟩
          { docstring := some "Closed\n\n@group g\n@AUTHENTICATED" }).1.result = .ok d →
        d.headers = privateConfig.headers :=
  have hsame := privateConfig_samePublic
  ⟨hsame, ((extract_confidential hsame 900 900 ⟨[], []⟩ {} _ _).1 (by decide)).1,
    (extract_confidential hsame 900 900 ⟨[], []⟩ {} _ _).2 (by decide)⟩

end Extractor
end RouteDoc
