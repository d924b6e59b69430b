import RouteDoc.Parameter.Cast
import RouteDoc.Proofs.Number.Numeral
import RouteDoc.Proofs.Parameter.Grammar
/-! Texts cast to types. A cast gives what the text reads as, a value of the type, or the text itself where it
reads as nothing. For integers the texts that are read are exactly the spellings, so casting undoes
printing. -/
namespace RouteDoc.ParamType
open Text

/-- The values that a text reads as when it is taken for a type. -/
inductive Reads (s : String) : ParamType → Value → Prop where
  | integer {n : Int} (h : Numeral.Spells n s.toList) : Reads s .integer (.int n)
  | numeric {x : Binary64} (h : Numeral.float? s.toList = some x) : Reads s .numeric (.float x)
  | float {x : Binary64} (h : Numeral.float? s.toList = some x) : Reads s .float (.float x)
  | no (h : lower (trimmed s) ∈ ["false", "0", "no", "off"]) : Reads s .boolean (.bool false)
  | yes (h : lower (trimmed s) ∈ ["true", "1", "yes", "on"]) : Reads s .boolean (.bool true)

theorem reads_boolean_iff {s : String} {b : Bool} :
    readBoolean? s = some b ↔ Reads s .boolean (.bool b) := by
  constructor
  · intro h
    rw [readBoolean?] at h
    split at h
    case isTrue hno => exact Option.some.inj h ▸ .no hno
    case isFalse =>
      split at h
      case isTrue hyes => exact Option.some.inj h ▸ .yes hyes
      case isFalse => cases h
  · intro h
    cases h with
    | no h => rw [readBoolean?, if_pos h]
    | yes h =>
      have hno : lower (trimmed s) ∉ ["false", "0", "no", "off"] := by
        simp only [List.mem_cons, List.not_mem_nil, or_false] at h
        rcases h with h | h | h | h <;> rw [h] <;> decide
      rw [readBoolean?, if_neg hno, if_pos h]

/-- A text is cast to what it reads as. -/
theorem cast_of_reads {s : String} {t : ParamType} {v : Value} (h : Reads s t v) : cast s t = v := by
  cases h with
  | integer h => rw [cast, Numeral.integer?_eq_some_iff.mpr h]; rfl
  | numeric h => rw [cast, h]; rfl
  | float h => rw [cast, h]; rfl
  | no h => rw [cast, reads_boolean_iff.mpr (.no h)]; rfl
  | yes h => rw [cast, reads_boolean_iff.mpr (.yes h)]; rfl

/-- A text that reads as nothing stays as it is. -/
theorem cast_of_not_reads {s : String} {t : ParamType} (h : ∀ v, ¬Reads s t v) : cast s t = .text s := by
  cases t with
  | integer =>
    have hnone : Numeral.integer? s.toList = none := Option.eq_none_iff_forall_ne_some.mpr
      fun n hn => h _ (.integer (Numeral.integer?_eq_some_iff.mp hn))
    rw [cast, hnone]
    rfl
  | numeric =>
    have hnone : Numeral.float? s.toList = none :=
      Option.eq_none_iff_forall_ne_some.mpr fun x hx => h _ (.numeric hx)
    rw [cast, hnone]
    rfl
  | float =>
    have hnone : Numeral.float? s.toList = none :=
      Option.eq_none_iff_forall_ne_some.mpr fun x hx => h _ (.float hx)
    rw [cast, hnone]
    rfl
  | boolean =>
    have hnone : readBoolean? s = none :=
      Option.eq_none_iff_forall_ne_some.mpr fun b hb => h _ (reads_boolean_iff.mp hb)
    rw [cast, hnone]
    rfl
  | _ => rfl

theorem cast_reads_or_text (s : String) (t : ParamType) :
    Reads s t (cast s t) ∨ (∀ v, ¬Reads s t v) ∧ cast s t = .text s := by
  by_cases h : ∃ v, Reads s t v
  · obtain ⟨v, hv⟩ := h
    exact .inl (cast_of_reads hv ▸ hv)
  · have hnone : ∀ v, ¬Reads s t v := fun v hv => h ⟨v, hv⟩
    exact .inr ⟨hnone, cast_of_not_reads hnone⟩

theorem name_of_ofName? {type : String} {t : ParamType} (h : ofName? type = some t) :
    t.name = type := by
  simpa using List.find?_some h

theorem castNamed_name (s : String) (t : ParamType) : castNamed s t.name = cast s t := by
  rw [castNamed, ofName?_name]

theorem castNamed_reads_or_text (s type : String) :
    castNamed s type = .text s ∨ ∃ t : ParamType, t.name = type ∧ Reads s t (castNamed s type) := by
  cases htype : ofName? type with
  | none => exact .inl (by rw [castNamed, htype])
  | some t =>
    obtain rfl := name_of_ofName? htype
    rw [castNamed_name]
    cases cast_reads_or_text s t with
    | inl hreads => exact .inr ⟨t, rfl, hreads⟩
    | inr htext => exact .inl htext.2

/-- A cast to integers takes every spelling for its integer, so it undoes printing, and leaves every other
text as it is. A cast to any type, known or not, gives what the text reads as or the very text. -/
theorem castNamed_undoes_spelling :
    (∀ (s : String) (n : Int), castNamed s "integer" = .int n ↔ Numeral.Spells n s.toList) ∧
      (∀ s : String, (∀ n, ¬Numeral.Spells n s.toList) → castNamed s "integer" = .text s) ∧
      (∀ n : Int, n.natAbs < 10 ^ Numeral.digitLimit → castNamed (toString n) "integer" = .int n) ∧
      ∀ s type : String, castNamed s type = .text s ∨
        ∃ t : ParamType, t.name = type ∧ Reads s t (castNamed s type) := by
  have hinteger (s : String) : castNamed s "integer" = cast s .integer := castNamed_name s .integer
  refine ⟨fun s n => ⟨fun h => ?_, fun h => ?_⟩, fun s h => ?_, fun n h => ?_, castNamed_reads_or_text⟩
  · rw [hinteger] at h
    cases cast_reads_or_text s .integer with
    | inl hreads =>
      rw [h] at hreads
      cases hreads with
      | integer hn => exact hn
    | inr htext => cases h.symm.trans htext.2
  · rw [hinteger, cast_of_reads (.integer h)]
  · rw [hinteger]
    refine cast_of_not_reads fun v hv => ?_
    cases hv with
    | integer hn => exact h _ hn
  · rw [hinteger, cast_of_reads (.integer (Numeral.spells_toString h))]

def mixedSpelling : String := "\u3000-\u0660\u0967_2\u2003"

theorem castNamed_undoes_spelling_mixed :
    castNamed mixedSpelling "integer" = .int (-12) ∧
      castNamed "1__2" "integer" = .text "1__2" ∧
      castNamed (toString (-40 : Int)) "integer" = .int (-40) := by
  obtain ⟨hspelling, hother, hprinted, -⟩ := castNamed_undoes_spelling
  have hmixed : Numeral.Spells (-12) mixedSpelling.toList :=
    Numeral.integer?_eq_some_iff.mp (by decide +kernel)
  have hdoubled (n : Int) : ¬Numeral.Spells n "1__2".toList := fun h => by
    have hnone : Numeral.integer? "1__2".toList = none := by decide +kernel
    rw [Numeral.integer?_eq_some_iff.mpr h] at hnone
    cases hnone
  have hsmall : (-40 : Int).natAbs < 10 ^ Numeral.digitLimit :=
    Nat.lt_of_lt_of_le (by decide : 40 < 10 ^ 2) (Nat.pow_le_pow_right (by decide) (by decide))
  exact ⟨(hspelling _ _).mpr hmixed, hother _ hdoubled, hprinted _ hsmall⟩

/-- An information separator is a blank but not one that may stand in front of a numeral. -/
theorem castNamed_separator :
    isBlank '\x1c' = true ∧ Numeral.Spells 5 ['5'] ∧
      castNamed "\x1c5" "integer" = .text "\x1c5" := by
  have hfive : Numeral.DigitRun [5] ['5'] := .single (by decide)
  refine ⟨by decide, ?_, ?_⟩
  · exact Numeral.Spells.intro (a := []) (b := []) (by simp) .none hfive (by decide) (by simp)
  · have hnone : Numeral.integer? "\x1c5".toList = none := by decide +kernel
    refine (castNamed_name "\x1c5" .integer).trans ?_
    rw [cast, hnone]
    rfl

end RouteDoc.ParamType
