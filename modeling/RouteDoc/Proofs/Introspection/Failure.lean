import RouteDoc.Introspection
import RouteDoc.Proofs.Assoc
import RouteDoc.Proofs.Schema
/-! The failures of an inspection that come without a message: a module name from which nothing can be
imported, errors of kinds that a stage does not report, and rules that a form request gives without any
error and that do not make a mapping with texts for its keys. -/
namespace RouteDoc.Introspection

inductive RuleName : Value → Prop
  | text (s : String) : RuleName (.text s)
  | bytes {bs : List UInt8} {s : String} (h : Schema.ofBytes bs = some s) : RuleName (.bytes bs)

theorem exists_text_iff (location : List String) {v : Value} :
    (∃ s, Schema.text location v = .ok s) ↔ RuleName v := by
  simp only [Schema.text_eq_ok_iff]
  constructor
  · rintro ⟨s, h⟩
    cases h with
    | text s => exact .text s
    | bytes h => exact .bytes h
  · intro h
    cases h with
    | text s => exact ⟨s, .text s⟩
    | bytes h => exact ⟨_, .bytes h⟩

theorem RuleName.isKey {k : Value} (h : RuleName k) : isKey k = true := by
  cases h <;> rfl

end RouteDoc.Introspection
