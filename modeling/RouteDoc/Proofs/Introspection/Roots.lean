import Mathlib.Data.List.Nodup
import RouteDoc.Introspection
/-! Import roots. Directories are only ever put in front: those that are not known yet, each once and in the
place where it is given last. What was there stays as it was, and nothing comes in twice. -/
namespace RouteDoc.Introspection

/-- The texts given that are not known, each once, in the order of the places where they are given last. -/
structure Newcomers (given known new : List String) : Prop where
  nodup : new.Nodup
  mem_iff : ∀ t, t ∈ new ↔ t ∈ given ∧ t ∉ known
  ordered : new.Pairwise fun t u => given.reverse.idxOf u < given.reverse.idxOf t

theorem Newcomers.nil (known : List String) : Newcomers [] known [] :=
  ⟨List.nodup_nil, by simp, List.Pairwise.nil⟩

theorem idxOf_reverse_cons {given : List String} {t : String} (h : t ∈ given) (d : String) :
    (d :: given).reverse.idxOf t = given.reverse.idxOf t := by
  rw [List.reverse_cons, List.idxOf_append_of_mem (List.mem_reverse.mpr h)]

namespace Newcomers
variable {given known new : List String} {d : String}

theorem mem_given (h : Newcomers given known new) {t : String} (ht : t ∈ new) : t ∈ given :=
  ((h.mem_iff t).mp ht).1

/-- Last places stay where they are when a text is given in front. -/
theorem ordered_cons (h : Newcomers given known new) (d : String) :
    new.Pairwise fun t u => (d :: given).reverse.idxOf u < (d :: given).reverse.idxOf t := by
  refine h.ordered.imp_of_mem fun {t u} ht hu hlt => ?_
  rwa [idxOf_reverse_cons (h.mem_given ht), idxOf_reverse_cons (h.mem_given hu)]

/-- A text that is known, or given again later, adds nothing. -/
theorem cons_of_mem (h : Newcomers given known new) (hd : d ∈ new ++ known) :
    Newcomers (d :: given) known new where
  nodup := h.nodup
  mem_iff t := by
    rw [h.mem_iff, List.mem_cons]
    constructor
    · exact fun ht => ⟨.inr ht.1, ht.2⟩
    · rintro ⟨rfl | ht, hnot⟩
      · exact (h.mem_iff t).mp ((List.mem_append.mp hd).resolve_right hnot)
      · exact ⟨ht, hnot⟩
  ordered := h.ordered_cons d

/-- A text that is neither known nor given again comes first. -/
theorem cons_of_not_mem (h : Newcomers given known new) (hd : d ∉ new ++ known) :
    Newcomers (d :: given) known (d :: new) := by
  obtain ⟨hnew, hknown⟩ : d ∉ new ∧ d ∉ known := by simpa using hd
  have hgiven : d ∉ given := fun hmem => hnew ((h.mem_iff d).mpr ⟨hmem, hknown⟩)
  have hfirst (t : String) (ht : t ∈ new) :
      (d :: given).reverse.idxOf t < (d :: given).reverse.idxOf d := by
    have hlt := List.idxOf_lt_length_of_mem (List.mem_reverse.mpr (h.mem_given ht))
    rw [idxOf_reverse_cons (h.mem_given ht), List.reverse_cons,
      List.idxOf_append_of_notMem (by simpa using hgiven)]
    omega
  refine ⟨List.nodup_cons.mpr ⟨hnew, h.nodup⟩, fun t => ?_,
    List.pairwise_cons.mpr ⟨hfirst, h.ordered_cons d⟩⟩
  rw [List.mem_cons, List.mem_cons, h.mem_iff]
  constructor
  · rintro (rfl | ht)
    · exact ⟨.inl rfl, hknown⟩
    · exact ⟨.inr ht.1, ht.2⟩
  · rintro ⟨rfl | ht, hnot⟩
    · exact .inl rfl
    · exact .inr ⟨ht, hnot⟩

end Newcomers

def fullPaths (files : FileTree) (dirs : List Path) : List String :=
  dirs.map fun d => (files.resolve d).text

theorem extendRoots_cons (files : FileTree) (d : Path) (dirs : List Path) (roots : List String) :
    extendRoots files (d :: dirs) roots =
      if (files.resolve d).text ∈ extendRoots files dirs roots then extendRoots files dirs roots
      else (files.resolve d).text :: extendRoots files dirs roots := rfl

/-- The last directory is put in front first, so the induction starts at the end of the list. -/
theorem exists_newcomers (files : FileTree) (dirs : List Path) (roots : List String) :
    ∃ new, extendRoots files dirs roots = new ++ roots ∧
      Newcomers (fullPaths files dirs) roots new := by
  induction dirs with
  | nil => exact ⟨[], rfl, .nil roots⟩
  | cons d dirs ih =>
    obtain ⟨new, hnew, h⟩ := ih
    rw [extendRoots_cons, hnew]
    by_cases hd : (files.resolve d).text ∈ new ++ roots
    · exact ⟨new, by rw [if_pos hd], h.cons_of_mem hd⟩
    · exact ⟨_ :: new, by rw [if_neg hd, List.cons_append], h.cons_of_not_mem hd⟩

theorem extendRoots_of_known {files : FileTree} {dirs : List Path} {roots : List String}
    (h : ∀ t ∈ fullPaths files dirs, t ∈ roots) : extendRoots files dirs roots = roots := by
  obtain ⟨new, hnew, hnewcomers⟩ := exists_newcomers files dirs roots
  have hnone : new = [] := List.eq_nil_iff_forall_not_mem.mpr fun t ht =>
    ((hnewcomers.mem_iff t).mp ht).2 (h t (hnewcomers.mem_given ht))
  rw [hnew, hnone, List.nil_append]

structure Extension where
  files : FileTree
  dirs : List Path

namespace Extension

def fullPaths (e : Extension) : List String := Introspection.fullPaths e.files e.dirs

def apply (roots : List String) (e : Extension) : List String := extendRoots e.files e.dirs roots

def applyAll (es : List Extension) (roots : List String) : List String := es.foldl apply roots

/-- Of several extensions that come one after the other, the first that brings a text counts. -/
theorem exists_added (es : List Extension) (roots : List String) :
    ∃ added, applyAll es roots = added ++ roots ∧ added.Nodup ∧
      ∀ t, t ∈ added ↔ t ∉ roots ∧ ∃ e ∈ es, t ∈ e.fullPaths := by
  induction es generalizing roots with
  | nil => exact ⟨[], rfl, List.nodup_nil, by simp⟩
  | cons e es ih =>
    obtain ⟨new, hnew, h⟩ := exists_newcomers e.files e.dirs roots
    obtain ⟨added, hadded, hnodup, hmem⟩ := ih (new ++ roots)
    refine ⟨added ++ new, ?_, ?_, fun t => ?_⟩
    · rw [applyAll, List.foldl_cons, ← applyAll, apply, hnew, hadded, List.append_assoc]
    · refine List.nodup_append.mpr ⟨hnodup, h.nodup, fun t ht u hu => ?_⟩
      rintro rfl
      exact ((hmem t).mp ht).1 (List.mem_append_left _ hu)
    · have hpaths : t ∈ new ↔ t ∈ e.fullPaths ∧ t ∉ roots := h.mem_iff t
      rw [List.mem_append, hmem, List.mem_append, hpaths, List.exists_mem_cons_iff]
      by_cases hroots : t ∈ roots
      · simp [hroots]
      · by_cases he : t ∈ e.fullPaths <;> simp [hroots, he]

/-- Each extension puts in front just the directories that are not roots yet, in their order and each once
where it is given last. So after any extensions the roots of the beginning stand at the end as they were, what
was added stands there once, and directories that are roots by then change nothing. -/
theorem applyAll_prepends :
    (∀ (e : Extension) (roots : List String),
      ∃ new, e.apply roots = new ++ roots ∧ Newcomers e.fullPaths roots new) ∧
    ∀ (es : List Extension) (roots : List String),
      (∃ added, applyAll es roots = added ++ roots ∧ added.Nodup ∧
        ∀ t, t ∈ added ↔ t ∉ roots ∧ ∃ e ∈ es, t ∈ e.fullPaths) ∧
      (∀ e ∈ es, e.apply (applyAll es roots) = applyAll es roots) ∧
      ∀ e : Extension, (∀ t ∈ e.fullPaths, t ∈ roots ∨ ∃ e' ∈ es, t ∈ e'.fullPaths) →
        e.apply (applyAll es roots) = applyAll es roots := by
  have hknown (es : List Extension) (roots : List String) (e : Extension)
      (h : ∀ t ∈ e.fullPaths, t ∈ roots ∨ ∃ e' ∈ es, t ∈ e'.fullPaths) :
      e.apply (applyAll es roots) = applyAll es roots := by
    obtain ⟨added, hadded, -, hmem⟩ := exists_added es roots
    refine extendRoots_of_known fun t ht => ?_
    rw [hadded, List.mem_append, hmem]
    by_cases hroots : t ∈ roots
    · exact .inr hroots
    · exact .inl ⟨hroots, (h t ht).resolve_left hroots⟩
  exact ⟨fun e roots => exists_newcomers e.files e.dirs roots, fun es roots =>
    ⟨exists_added es roots, fun e he => hknown es roots e fun t ht => .inr ⟨e, he, ht⟩,
      hknown es roots⟩⟩

/-- In the directory `/w`, which is a root: `a`, `b`, `a/../b`, `/w/a` and `.`; after them `c/../a` adds
nothing. -/
theorem applyAll_prepends_spellings :
    let files : FileTree := ⟨["w"], []⟩
    let first : Extension :=
      ⟨files, [⟨"", ["a"]⟩, ⟨"", ["b"]⟩, ⟨"", ["a", "..", "b"]⟩, ⟨"/", ["w", "a"]⟩, ⟨"", []⟩]⟩
    let again : Extension := ⟨files, [⟨"", ["c", "..", "a"]⟩]⟩
    (∀ t ∈ again.fullPaths, t ∈ ["", "/lib", "/w"] ∨ ∃ e ∈ [first], t ∈ e.fullPaths) ∧
      applyAll [first] ["", "/lib", "/w"] = ["/w/b", "/w/a", "", "/lib", "/w"] ∧
      again.apply (applyAll [first] ["", "/lib", "/w"]) = applyAll [first] ["", "/lib", "/w"] ∧
      first.apply (applyAll [first] ["", "/lib", "/w"]) = applyAll [first] ["", "/lib", "/w"] := by
  intro files first again
  have h : ∀ t ∈ again.fullPaths, t ∈ ["", "/lib", "/w"] ∨ ∃ e ∈ [first], t ∈ e.fullPaths := by decide
  obtain ⟨-, hrepeat, hknown⟩ := applyAll_prepends.2 [first] ["", "/lib", "/w"]
  exact ⟨h, by decide, hknown again h, hrepeat first (List.mem_singleton_self first)⟩

end Extension
end RouteDoc.Introspection
