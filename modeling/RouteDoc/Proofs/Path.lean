import Mathlib.Data.List.Induction
import RouteDoc.Path
/-! Paths in which each `..` takes back the part before it. Parts that are followed from a directory lead up some
levels and then down by names, and how far up and where down does not depend on the directory. -/
namespace RouteDoc.Path

theorem parts_ofText {s c : String} (h : c ∈ (ofText s).parts) : c ≠ "" ∧ c ≠ "." := by
  rw [ofText, List.mem_filter] at h
  simpa using h.2

theorem foldParts_append (location u v : List String) :
    foldParts location (u ++ v) = foldParts (foldParts location u) v := by
  induction u generalizing location with
  | nil => rfl
  | cons c u ih => exact ih _

theorem foldParts_parent (location : List String) : foldParts location [".."] = location.dropLast := rfl

theorem foldParts_name (location : List String) {c : String} (hup : c ≠ "..") (hself : c ≠ ".") :
    foldParts location [c] = location ++ [c] := by
  rw [foldParts, if_neg hup, if_neg hself, foldParts]

structure Course where
  up : Nat
  down : List String

/-- The course with one more part: `..` takes back a name if there is one, else it leads up. -/
def Course.step (c : Course) (part : String) : Course :=
  if part = ".." then
    if c.down = [] then ⟨c.up + 1, []⟩ else ⟨c.up, c.down.dropLast⟩
  else if part = "." then c
  else ⟨c.up, c.down ++ [part]⟩

namespace Course
variable {c : Course}

theorem step_parent_of_nil (h : c.down = []) : c.step ".." = ⟨c.up + 1, []⟩ := by
  rw [step, if_pos rfl, if_pos h]

theorem step_parent (h : c.down ≠ []) : c.step ".." = ⟨c.up, c.down.dropLast⟩ := by
  rw [step, if_pos rfl, if_neg h]

theorem step_self : c.step "." = c := rfl

theorem step_name {part : String} (hup : part ≠ "..") (hself : part ≠ ".") :
    c.step part = ⟨c.up, c.down ++ [part]⟩ := by
  rw [step, if_neg hup, if_neg hself]

end Course

def Course.lead (c : Course) (location : List String) : List String :=
  location.take (location.length - c.up) ++ c.down

def course (parts : List String) : Course := parts.foldl Course.step ⟨0, []⟩

theorem course_concat (parts : List String) (part : String) :
    course (parts ++ [part]) = (course parts).step part := List.foldl_append

theorem Course.lead_step (c : Course) (location : List String) (part : String) :
    foldParts (c.lead location) [part] = (c.step part).lead location := by
  by_cases hup : part = ".."
  · rw [hup, foldParts_parent]
    by_cases hdown : c.down = []
    · have hlevel : min (min (location.length - c.up) location.length - 1) (location.length - c.up) =
          location.length - (c.up + 1) := by omega
      rw [step_parent_of_nil hdown, lead, lead, hdown, List.append_nil, List.append_nil,
        List.dropLast_eq_take, List.take_take, List.length_take, hlevel]
    · rw [step_parent hdown, lead, lead, List.dropLast_append_of_ne_nil hdown]
  · by_cases hself : part = "."
    · rw [hself, step_self]
      rfl
    · rw [step_name hup hself, foldParts_name _ hup hself, lead, lead, List.append_assoc]

/-- Parts lead where their course leads. -/
theorem foldParts_eq (location parts : List String) :
    foldParts location parts = (course parts).lead location := by
  induction parts using List.reverseRecOn with
  | nil => simp [foldParts, course, Course.lead]
  | append_singleton parts part ih =>
    rw [foldParts_append, ih, Course.lead_step, course_concat]

/-- A course leads back into a directory when the names down start with those that it took from it. -/
theorem Course.prefix_lead_iff (c : Course) (location : List String) :
    location <+: c.lead location ↔ location.drop (location.length - c.up) <+: c.down := by
  have hsplit := List.take_append_drop (location.length - c.up) location
  rw [lead]
  nth_rewrite 1 [← hsplit]
  exact List.prefix_append_right_inj _

/-- Up to no part there are more `..` than names, so that none leads above the start. -/
def StaysBelow (parts : List String) : Prop :=
  ∀ front, front <+: parts → front.count ".." ≤ front.countP (· != "..")

theorem staysBelow_concat_iff {parts : List String} {part : String} :
    StaysBelow (parts ++ [part]) ↔ StaysBelow parts ∧
      (parts ++ [part]).count ".." ≤ (parts ++ [part]).countP (· != "..") := by
  constructor
  · exact fun h => ⟨fun front hfront => h front (hfront.trans (List.prefix_append _ _)),
      h _ (List.prefix_refl _)⟩
  · rintro ⟨h, hall⟩ front hfront
    rcases List.prefix_concat_iff.mp hfront with rfl | hfront
    · exact hall
    · exact h front hfront

/-- Each name goes down a level; each `..` goes up one, from a name or from where all began. -/
theorem course_balance {parts : List String} (h : "." ∉ parts) :
    (course parts).down.length + parts.count ".." =
      parts.countP (· != "..") + (course parts).up := by
  induction parts using List.reverseRecOn with
  | nil => rfl
  | append_singleton parts part ih =>
    obtain ⟨hparts, hself⟩ : "." ∉ parts ∧ "." ≠ part := by simpa using h
    have hbalance := ih hparts
    rw [course_concat, List.count_append, List.countP_append]
    by_cases hup : part = ".."
    · subst hup
      have hclimbs : [".."].count ".." = 1 ∧ [".."].countP (· != "..") = 0 := by decide
      by_cases hdown : (course parts).down = []
      · rw [hdown, List.length_nil] at hbalance
        rw [Course.step_parent_of_nil hdown, hclimbs.1, hclimbs.2]
        dsimp only [List.length_nil]
        omega
      · have hpos := List.length_pos_iff.mpr hdown
        rw [Course.step_parent hdown, hclimbs.1, hclimbs.2, List.length_dropLast]
        dsimp only
        omega
    · have hname : [part].count ".." = 0 ∧ [part].countP (· != "..") = 1 := by simp [hup]
      rw [Course.step_name hup (Ne.symm hself), hname.1, hname.2, List.length_append,
        List.length_singleton]
      dsimp only
      omega

/-- Parts do not lead above their start just when no front of them climbs more often than it goes down. -/
theorem course_up_eq_zero_iff {parts : List String} (h : "." ∉ parts) :
    (course parts).up = 0 ↔ StaysBelow parts := by
  induction parts using List.reverseRecOn with
  | nil => simp [course, StaysBelow]
  | append_singleton parts part ih =>
    obtain ⟨hparts, hself⟩ : "." ∉ parts ∧ "." ≠ part := by simpa using h
    have hbalance := course_balance h
    rw [staysBelow_concat_iff, ← ih hparts]
    rw [course_concat] at hbalance ⊢
    by_cases hup : part = ".."
    · subst hup
      by_cases hdown : (course parts).down = []
      · rw [Course.step_parent_of_nil hdown] at hbalance ⊢
        dsimp only [List.length_nil] at hbalance ⊢
        omega
      · rw [Course.step_parent hdown] at hbalance ⊢
        dsimp only at hbalance ⊢
        omega
    · rw [Course.step_name hup (Ne.symm hself)] at hbalance ⊢
      dsimp only at hbalance ⊢
      omega

end RouteDoc.Path
