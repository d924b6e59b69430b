import RouteDoc.Proofs.FileTree
import RouteDoc.Proofs.Path
import RouteDoc.Proofs.Response.Decoding
/-! Where response files lie. A tag may name a file outside of the directory of response files: by a path from
the root, or by one that climbs above the directory. Just the paths that do neither lead into every directory. -/
namespace RouteDoc

namespace FileTree

/-- What a path leads to lies where the path without `..` says: on the way are directories only. -/
theorem eq_foldParts_of_walk {t : FileTree} {location parts place : List String} (hparts : "" ∉ parts)
    (h : t.walk location parts = .ok place) : place = Path.foldParts location parts := by
  induction parts generalizing location with
  | nil => exact (Except.ok.inj h).symm
  | cons c r ih =>
    obtain ⟨hc, hr⟩ : "" ≠ c ∧ "" ∉ r := by simpa using hparts
    have hfollow : Path.foldParts location (c :: r) = Path.foldParts (follow location c) r := by
      simp [Path.foldParts, follow, Ne.symm hc]
    rw [hfollow]
    by_cases hlong : c.utf8ByteSize > nameLimit
    · cases r <;> simp [walk_single, walk_cons_cons, hlong] at h
    · cases r with
      | nil =>
        rw [walk_single, if_neg hlong] at h
        exact (Except.ok.inj h).symm
      | cons d r =>
        rw [walk_cons_cons, if_neg hlong] at h
        cases hnode : t.node? (follow location c) with
        | none => simp [hnode] at h
        | some n =>
          cases n with
          | file b => simp [hnode] at h
          | directory =>
            rw [hnode] at h
            exact ih hr h

theorem node?_of_readBytes {t : FileTree} {p : Path} {b : List UInt8} (hparts : "" ∉ p.parts)
    (h : t.readBytes p = .ok b) : t.node? (t.resolve p).parts = some (.file b) := by
  rw [readBytes, find?, locate] at h
  cases hcheck : checkPath p with
  | error e => simp [hcheck] at h
  | ok u =>
    simp only [hcheck] at h
    cases hwalk : t.walk (if p.isAbsolute then [] else t.cwd) p.parts with
    | error e => simp [hwalk] at h
    | ok l =>
      simp only [hwalk] at h
      rw [resolve, ← eq_foldParts_of_walk hparts hwalk]
      cases hnode : t.node? l with
      | none => simp [hnode] at h
      | some n =>
        cases n with
        | directory => simp [hnode] at h
        | file c => simpa [hnode] using h

/-- A path leads into a directory: without `..` the one starts with the other. -/
def Within (t : FileTree) (dir p : Path) : Prop := (t.resolve dir).parts <+: (t.resolve p).parts

instance (t : FileTree) (dir p : Path) : Decidable (t.Within dir p) :=
  inferInstanceAs (Decidable (_ <+: _))

end FileTree

namespace Path

/-- A path that leads into a directory when it is followed from there: from the root by the directory's own
names, or up by some levels and down again by just the names that it left. -/
inductive Enters (p : Path) (location : List String) : Prop
  | fromRoot (habsolute : p.isAbsolute = true) (hdown : location <+: (course p.parts).down)
  | fromThere (hrelative : p.isAbsolute = false)
      (hdown : location.drop (location.length - (course p.parts).up) <+: (course p.parts).down)

theorem resolve_join (t : FileTree) (dir p : Path) :
    (t.resolve (dir.join p)).parts =
      foldParts (if p.isAbsolute then [] else (t.resolve dir).parts) p.parts := by
  rw [join]
  by_cases h : p.isAbsolute
  · rw [if_pos h, if_pos h, FileTree.resolve, if_pos h]
  · rw [if_neg h, if_neg h, FileTree.resolve, FileTree.resolve, ← foldParts_append]
    rfl

theorem mem_parts_join {p q : Path} {c : String} (h : c ∈ (p.join q).parts) :
    c ∈ p.parts ∨ c ∈ q.parts := by
  rw [join] at h
  split at h
  · exact .inr h
  · exact List.mem_append.mp h

theorem within_join_iff (t : FileTree) (dir p : Path) :
    t.Within dir (dir.join p) ↔ p.Enters (t.resolve dir).parts := by
  rw [FileTree.Within, resolve_join, foldParts_eq]
  cases habsolute : p.isAbsolute with
  | true =>
    rw [if_pos rfl, Course.lead, List.take_nil, List.nil_append]
    constructor
    · exact .fromRoot habsolute
    · rintro (⟨-, hdown⟩ | ⟨hrelative, -⟩)
      · exact hdown
      · simp [habsolute] at hrelative
  | false =>
    rw [if_neg Bool.false_ne_true, Course.prefix_lead_iff]
    constructor
    · exact .fromThere habsolute
    · rintro (⟨hroot, -⟩ | ⟨-, hdown⟩)
      · simp [habsolute] at hroot
      · exact hdown

theorem not_prefix_of_prefix {a b : String} (hne : a ≠ b) {l : List String} (h : [a] <+: l) :
    ¬[b] <+: l := by
  obtain ⟨r, rfl⟩ := h
  simpa using Ne.symm hne

theorem down_of_enters {p : Path} (h : p.isAbsolute = true ∨ (course p.parts).up ≠ 0) {a : String}
    (ha : p.Enters [a]) : [a] <+: (course p.parts).down := by
  cases ha with
  | fromRoot _ hdown => exact hdown
  | fromThere hrelative hdown =>
    have hup : (course p.parts).up ≠ 0 := h.resolve_left (by simp [hrelative])
    have hroot : [a].length - (course p.parts).up = 0 := by
      rw [List.length_singleton]
      omega
    rwa [hroot, List.drop_zero] at hdown

/-- From the root or from above a path does not enter two directories that have nothing in common. -/
theorem forall_enters_iff {p : Path} (h : "." ∉ p.parts) :
    (∀ location, p.Enters location) ↔ p.isAbsolute = false ∧ StaysBelow p.parts := by
  rw [← course_up_eq_zero_iff h]
  constructor
  · intro hall
    by_contra hnot
    have hleaves : p.isAbsolute = true ∨ (course p.parts).up ≠ 0 := by
      rw [← Bool.not_eq_false]
      exact not_and_or.mp hnot
    exact not_prefix_of_prefix (by decide : "a" ≠ "b") (down_of_enters hleaves (hall ["a"]))
      (down_of_enters hleaves (hall ["b"]))
  · rintro ⟨hrelative, hup⟩ location
    refine .fromThere hrelative ?_
    simp [hup]

end Path

namespace Response
open Text

/-- What a tag has read is the file where its path leads without `..`, and from it comes the answer. It lies in
the directory of response files just when the path that the tag names enters it: a path that is relative and never
climbs above its start enters every directory, and no other path does. -/
theorem opened_within_iff {q : Query} {content : String}
    (hq : Comment.firstTag? "responseFile" q.tags = some content) (room : Nat) (files : FileTree)
    (dir : Path) :
    ("" ∉ dir.parts → ∀ bytes, files.readBytes (filePath dir content) = .ok bytes →
      files.node? (files.resolve (filePath dir content)).parts = some (.file bytes) ∧
        (fromFile room files dir q).result = match ofFile? bytes with
          | .none => .error (.notText (filePath dir content) q.route.uri)
          | some s => decode room s) ∧
    (files.Within dir (filePath dir content) ↔
      (Path.ofText (payloadText content)).Enters (files.resolve dir).parts) ∧
    ((∀ (files : FileTree) (dir : Path), files.Within dir (filePath dir content)) ↔
      (Path.ofText (payloadText content)).isAbsolute = false ∧
        Path.StaysBelow (Path.ofText (payloadText content)).parts) := by
  have hself : "." ∉ (Path.ofText (payloadText content)).parts := fun h => (Path.parts_ofText h).2 rfl
  have hwithin (files : FileTree) (dir : Path) : files.Within dir (filePath dir content) ↔
      (Path.ofText (payloadText content)).Enters (files.resolve dir).parts :=
    Path.within_join_iff files dir _
  refine ⟨fun hdir bytes hread => ⟨FileTree.node?_of_readBytes (fun hmem => ?_) hread, ?_⟩,
    hwithin files dir, ?_⟩
  · cases Path.mem_parts_join hmem with
    | inl h => exact hdir h
    | inr h => exact (Path.parts_ofText h).1 rfl
  · unfold filePath at hread ⊢
    simp only [fromFile, hq, hread]
    cases ofFile? bytes <;> rfl
  · rw [← Path.forall_enters_iff hself]
    constructor
    · intro hall location
      have hhere : (FileTree.resolve ⟨location, []⟩ ⟨"", []⟩).parts = location := rfl
      rw [← hhere, ← hwithin]
      exact hall _ _
    · intro hall files dir
      rw [hwithin]
      exact hall _

def docsTree : FileTree where
  cwd := ["srv"]
  nodes := [(["srv", "docs"], .directory), (["srv", "docs", "api"], .directory),
    (["srv", "docs", "a.json"], .file [49]), (["srv", "up.json"], .file [50])]

def returningContent : String := "200 api/../../docs/a.json"

theorem opened_within_iff_returning :
    Comment.firstTag? "responseFile" (fileQuery returningContent).tags = some returningContent ∧
      docsTree.node? ["srv", "docs", "a.json"] = some (.file [49]) ∧
      (fromFile 900 docsTree (.ofText "docs") (fileQuery returningContent)).result = .ok (.int 1) ∧
      docsTree.Within (.ofText "docs") (filePath (.ofText "docs") returningContent) ∧
      (Path.ofText (payloadText returningContent)).Enters ["srv", "docs"] ∧
      ¬∀ (files : FileTree) (dir : Path), files.Within dir (filePath dir returningContent) := by
  obtain ⟨hopened, hwithin, hall⟩ := opened_within_iff (q := fileQuery returningContent) rfl 900
    docsTree (.ofText "docs")
  have hread : docsTree.readBytes (filePath (.ofText "docs") returningContent) = .ok [49] := by
    decide +kernel
  have hinside : docsTree.Within (.ofText "docs") (filePath (.ofText "docs") returningContent) := by
    decide +kernel
  have hparts : (Path.ofText (payloadText returningContent)).parts =
      ["api", "..", "..", "docs", "a.json"] := by decide +kernel
  obtain ⟨hnode, hresult⟩ := hopened (by decide +kernel) [49] hread
  refine ⟨rfl, hnode, hresult.trans rfl, hinside, hwithin.mp hinside, fun h => ?_⟩
  have hstays := (hall.mp h).2
  rw [hparts] at hstays
  exact absurd (hstays ["api", "..", ".."] (by decide)) (by decide)

/-- Files beside the directory are shown, whether the path climbs or starts at the root. -/
theorem fromFile_outside :
    fromFile 900 docsTree (.ofText "docs") (fileQuery "../up.json") = { result := .ok (.int 2) } ∧
      ¬docsTree.Within (.ofText "docs") (filePath (.ofText "docs") "../up.json") ∧
      fromFile 900 docsTree (.ofText "docs") (fileQuery "200 /srv/up.json") = { result := .ok (.int 2) } ∧
      ¬docsTree.Within (.ofText "docs") (filePath (.ofText "docs") "200 /srv/up.json") := by
  refine ⟨rfl, by decide +kernel, rfl, by decide +kernel⟩

end Response
end RouteDoc
