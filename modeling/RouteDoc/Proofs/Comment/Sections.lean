import RouteDoc.Proofs.Comment.TagLine
/-! The parts of a comment: its body, its sections and the paragraphs of its description. -/
namespace RouteDoc.Comment
open Text

theorem body_of_plain {s : List Char} (h : ¬"/**".toList <+: trim s) : body s = trim s := by
  rw [body]
  split
  case h_1 r heq => exact absurd ⟨r, by rw [heq]; rfl⟩ h
  case h_2 => rfl

theorem splitParagraphs_blank {l : List Char} (hl : AllBlank l) (ls : List (List Char)) :
    splitParagraphs (l :: ls) = ([], paragraphs ls) := by
  simp [splitParagraphs, paragraphs, all_isBlank_iff.mpr hl]

theorem splitParagraphs_inked {l : List Char} (hl : ¬AllBlank l) (ls : List (List Char)) :
    splitParagraphs (l :: ls) = (trimEnd l :: (splitParagraphs ls).1, (splitParagraphs ls).2) := by
  simp only [splitParagraphs, if_neg (mt all_isBlank_iff.mp hl)]

theorem flatten_paragraphs (ls : List (List Char)) :
    (paragraphs ls).flatten = (splitParagraphs ls).1 ++ (splitParagraphs ls).2.flatten := by
  rw [paragraphs]
  cases h : (splitParagraphs ls).1 <;> simp [h]

end RouteDoc.Comment
