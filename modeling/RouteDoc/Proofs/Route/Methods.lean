import Mathlib.Data.List.Sort
import RouteDoc.Proofs.Distinct
import RouteDoc.Proofs.Route.Identity
import RouteDoc.Proofs.Text.Case
/-! The methods of a route in normal form: in upper case and without HEAD, each once, in the order of their
code points. All that is left of a list of methods is the set of their upper cases, so two lists with one
set make one route and one id. -/
namespace RouteDoc.Route
open Text

def codePoints (s : String) : List Nat := s.toList.map Char.toNat

theorem codePoints_lt {s t : String} (h : s < t) : codePoints s < codePoints t :=
  List.map_lt (fun _ _ hlt => Char.lt_def.mp hlt) (String.lt_iff.mp h)

theorem pairwise_sortTexts (l : List String) : (sortTexts l).Pairwise (· ≤ ·) := by
  have htrans (a b c : String) : decide (a ≤ b) = true → decide (b ≤ c) = true →
      decide (a ≤ c) = true := by
    simpa using String.le_trans
  have htotal (a b : String) : (decide (a ≤ b) || decide (b ≤ a)) = true := by
    simpa using String.le_total a b
  simpa [sortTexts] using List.pairwise_mergeSort htrans htotal l

theorem mem_sortTexts {l : List String} {s : String} : s ∈ sortTexts l ↔ s ∈ l := List.mem_mergeSort

theorem mem_normalizeMethods {ms : List String} {m : String} :
    m ∈ normalizeMethods ms ↔ m ≠ "HEAD" ∧ m ∈ ms.map upper := by
  rw [normalizeMethods, mem_sortTexts, List.mem_filter, List.mem_eraseDups, and_comm, bne_iff_ne]

theorem nodup_normalizeMethods (ms : List String) : (normalizeMethods ms).Nodup :=
  (List.mergeSort_perm _ _).nodup_iff.mpr ((nodup_eraseDups (ms.map upper)).filter _)

theorem pairwise_normalizeMethods (ms : List String) : (normalizeMethods ms).Pairwise (· < ·) := by
  have hsorted : (normalizeMethods ms).Pairwise (· ≤ ·) := pairwise_sortTexts _
  refine hsorted.imp₂ (fun a b hle hne => ?_) (nodup_normalizeMethods ms)
  exact String.not_le.mp fun hge => hne (String.le_antisymm hle hge)

theorem normalizeMethods_eq_iff {ms ns : List String} :
    normalizeMethods ms = normalizeMethods ns ↔
      ∀ m, m ≠ "HEAD" → (m ∈ ms.map upper ↔ m ∈ ns.map upper) := by
  constructor
  · intro h m hm
    have hmem : m ∈ normalizeMethods ms ↔ m ∈ normalizeMethods ns := by rw [h]
    simpa [mem_normalizeMethods, hm] using hmem
  · intro h
    refine List.Pairwise.eq_of_mem_iff (pairwise_normalizeMethods ms) (pairwise_normalizeMethods ns)
      fun m => ?_
    rw [mem_normalizeMethods, mem_normalizeMethods]
    exact and_congr_right (h m)

/-- Methods in normal form stay as they are, because upper case does. -/
theorem normalizeMethods_normalizeMethods (ms : List String) :
    normalizeMethods (normalizeMethods ms) = normalizeMethods ms := by
  refine normalizeMethods_eq_iff.mpr fun m hm => ?_
  constructor
  · intro h
    obtain ⟨n, hn, rfl⟩ := List.mem_map.mp h
    obtain ⟨-, hn⟩ := mem_normalizeMethods.mp hn
    obtain ⟨s, -, rfl⟩ := List.mem_map.mp hn
    rwa [upper_upper]
  · intro h
    obtain ⟨s, hs, rfl⟩ := List.mem_map.mp h
    exact List.mem_map.mpr ⟨upper s, mem_normalizeMethods.mpr ⟨hm, h⟩, upper_upper s⟩

/-- The methods of a route come in strict order of their code points, are the upper cases of those given
but for HEAD, and are in normal form; routes whose methods have the same upper cases but for HEAD have
the same methods and, at one address, the same id. -/
theorem methods_canonical :
    (∀ (uri : String) (ms : List String) (handler : HandlerRef),
      ((make uri ms handler).methods.map codePoints).Pairwise (· < ·) ∧
        (∀ m, m ∈ (make uri ms handler).methods ↔ m ≠ "HEAD" ∧ ∃ s ∈ ms, upper s = m) ∧
        normalizeMethods (make uri ms handler).methods = (make uri ms handler).methods) ∧
    ∀ (uri : String) (ms ns : List String) (handler handler' : HandlerRef),
      (∀ m, m ≠ "HEAD" → (m ∈ ms.map upper ↔ m ∈ ns.map upper)) →
        (make uri ms handler).methods = (make uri ns handler').methods ∧
          id uri (make uri ms handler).methods = id uri (make uri ns handler').methods := by
  refine ⟨fun uri ms handler => ⟨?_, fun m => ?_, normalizeMethods_normalizeMethods ms⟩,
    fun uri ms ns handler handler' h => ?_⟩
  · exact List.pairwise_map.mpr ((pairwise_normalizeMethods ms).imp codePoints_lt)
  · exact mem_normalizeMethods.trans (and_congr_right fun _ => List.mem_map)
  · have hsame : (make uri ms handler).methods = (make uri ns handler').methods :=
      normalizeMethods_eq_iff.mpr h
    exact ⟨hsame, congrArg (id uri) hsame⟩

/-- A letter whose upper case has two, and a small HEAD. -/
theorem methods_canonical_sharpS :
    (∀ m, m ≠ "HEAD" → (m ∈ ["maß", "get", "head", "GET"].map upper ↔ m ∈ ["Get", "MASS"].map upper)) ∧
      id "/a" (make "/a" ["maß", "get", "head", "GET"] ⟨"app", "f"⟩).methods =
        id "/a" (make "/a" ["Get", "MASS"] ⟨"app", "f"⟩).methods := by
  have h : ∀ m, m ≠ "HEAD" →
      (m ∈ ["maß", "get", "head", "GET"].map upper ↔ m ∈ ["Get", "MASS"].map upper) := by
    have hleft : ["maß", "get", "head", "GET"].map upper = ["MASS", "GET", "HEAD", "GET"] := by
      decide +kernel
    have hright : ["Get", "MASS"].map upper = ["GET", "MASS"] := by decide +kernel
    intro m hm
    rw [hleft, hright]
    simp only [List.mem_cons, List.not_mem_nil, hm, false_or, or_false]
    tauto
  exact ⟨h, (methods_canonical.2 "/a" _ _ _ _ h).2⟩

end RouteDoc.Route
