import RouteDoc.Batch
import RouteDoc.Proofs.Descriptor
import RouteDoc.Proofs.Extraction.Samples
import RouteDoc.Proofs.Extraction.Tables
import RouteDoc.Proofs.Response.Chain
import RouteDoc.Proofs.Response.Decoding
/-! The values of a descriptor: samples that are drawn or read from a text, and a response that is decoded.
All of them can be read again once they are written. -/
namespace RouteDoc
open Text

namespace Binary64

end Binary64

namespace Numeral

theorem ofDigits_lt {ds : List Nat} (h : ∀ d ∈ ds, d < 10) : ofDigits 10 ds < 10 ^ ds.length := by
  rw [ofDigits_eq, ← List.length_reverse]
  exact Nat.ofDigits_lt_base_pow_length (by decide) fun d hd => h d (List.mem_reverse.mp hd)

end Numeral

namespace Json

theorem value_lt {ds : List Char} (h : Digits ds) : value ds < 10 ^ ds.length := by
  have hlength : (ds.map fun c => c.toNat - '0'.toNat).length = ds.length := List.length_map _
  rw [value, ← hlength]
  refine Numeral.ofDigits_lt fun d hd => ?_
  obtain ⟨c, hc, rfl⟩ := List.mem_map.mp hd
  have hdigit := h.all c hc
  simp only [isDigit, Bool.and_eq_true, decide_eq_true_eq, Char.le_def, UInt32.le_iff_toNat_le] at hdigit
  have hlast : c.toNat ≤ '9'.toNat := hdigit.2
  have hnine : '9'.toNat = '0'.toNat + 9 := rfl
  omega

theorem Number.readable {negative : Bool} {v : Value} {t : List Char} (h : Number negative v t) :
    v.Readable := by
  cases h with
  | int hw hlen =>
    have hsigned : (signed negative t).natAbs = value t := by
      rw [signed]
      cases negative <;> simp
    exact .int (hsigned ▸ (value_lt hw.toDigits).trans_le (Nat.pow_le_pow_right (by decide) hlen))
  | float => exact .float (Binary64.rounded_ofDecimal _ _ _)

def Piece.Readable : Piece → Prop
  | .value v => v.Readable
  | .items vs => ∀ v ∈ vs, v.Readable
  | .entries es => ∀ e ∈ es, e.2.Readable

theorem Writes.readable {room : Nat} {p : Piece} {s r : List Char} (h : Writes room p s r) :
    p.Readable := by
  induction h with
  | word hw =>
    cases hw with
    | null => exact .null
    | true | false => exact .bool _
    | nan => exact .float .nan
    | infinity => exact .float (.infinite _)
  | number h | negative h => exact Number.readable h
  | infinite => exact .float (.infinite _)
  | text => exact .text _
  | noItems => exact .list (by simp)
  | list _ _ ih => exact .list ih
  | noEntries => exact .mapping (by simp)
  | object _ _ ih => exact .mapping (Assoc.forall_value_ofList ih)
  | lastItem _ _ ih => exact List.forall_mem_singleton.mpr ih
  | item _ _ _ ih ih' => exact List.forall_mem_cons.mpr ⟨ih, ih'⟩
  | lastEntry _ _ _ ih => exact List.forall_mem_singleton.mpr ih
  | entry _ _ _ _ ih ih' => exact List.forall_mem_cons.mpr ⟨ih, ih'⟩

end Json

namespace Response

end Response

def Draft.Readable (d : Draft) : Prop := ∀ v, d.sample = .given v → v.Readable

end RouteDoc
