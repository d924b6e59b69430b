import RouteDoc.Json.Writer
import RouteDoc.Proofs.Json.Completeness
import RouteDoc.Proofs.Json.WrittenNumbers
/-! What is written in JSON is read back. Data that numbers of usual size and floating-point numbers in
their form make, nested no deeper than there is room for, are written as a document of their value. -/
namespace RouteDoc

namespace Data

mutual
def value : Data → Value
  | .null => .null
  | .bool b => .bool b
  | .int n => .int n
  | .float x => .float x
  | .text s => .text s
  | .list ds => .list (values ds)
  | .mapping es => .ofPairs (pairs es)

def values : List Data → List Value
  | [] => []
  | d :: ds => d.value :: values ds

def pairs : List (String × Data) → List (Value × Value)
  | [] => []
  | (k, d) :: es => (.text k, d.value) :: pairs es
end

/-- Data with brackets nested `room` deep at most, and with numbers that can be read. -/
inductive Readable : Nat → Data → Prop
  | null {room : Nat} : Readable room .null
  | bool {room : Nat} (b : Bool) : Readable room (.bool b)
  | int {room : Nat} {n : Int} (h : n.natAbs < 10 ^ Numeral.digitLimit) : Readable room (.int n)
  | float {room : Nat} (s : Bool) {m : Nat} {e : Int} (h : Binary64.Normal m e) :
      Readable room (.float (.finite s m e))
  | text {room : Nat} (s : String) : Readable room (.text s)
  | list {room : Nat} {ds : List Data} (h : ∀ d ∈ ds, Readable room d) :
      Readable (room + 1) (.list ds)
  | mapping {room : Nat} {es : List (String × Data)} (h : ∀ e ∈ es, Readable room e.2) :
      Readable (room + 1) (.mapping es)

theorem Readable.mono {room room' : Nat} {d : Data} (h : Readable room d) (hle : room ≤ room') :
    Readable room' d := by
  induction h generalizing room' with
  | null => exact .null
  | bool b => exact .bool b
  | int h => exact .int h
  | float s h => exact .float s h
  | text s => exact .text s
  | list _ ih =>
    obtain ⟨room', rfl⟩ := Nat.exists_eq_succ_of_ne_zero (Nat.ne_of_gt (Nat.lt_of_succ_le hle |>.bot_lt))
    exact .list fun d hd => ih d hd (Nat.le_of_succ_le_succ hle)
  | mapping _ ih =>
    obtain ⟨room', rfl⟩ := Nat.exists_eq_succ_of_ne_zero (Nat.ne_of_gt (Nat.lt_of_succ_le hle |>.bot_lt))
    exact .mapping fun e he => ih e he (Nat.le_of_succ_le_succ hle)

end Data

namespace Json
open Text

theorem simpleEscape?_of_shortEscape? {c e : Char} (h : shortEscape? c = some e) :
    simpleEscape? e = some c := by
  have htable : ∀ p ∈ [('"', '"'), ('\\', '\\'), ('\n', 'n'), ('\r', 'r'), ('\t', 't'), ('\x08', 'b'),
      ('\x0c', 'f')], simpleEscape? p.2 = some p.1 := by decide
  obtain ⟨front, behind, hsplit, -⟩ := List.lookup_eq_some_iff.mp h
  exact htable (c, e) (hsplit ▸ by simp)

theorem escapedUnit?_hex {n : Nat} (h : n < 32) (r : List Char) :
    escapedUnit? (hex 4 n ++ r) = some (Char.ofNat n, r) := by
  have hhex : ∀ n < 32, hex 4 n = ['0', '0', (n / 16).digitChar, (n % 16).digitChar] := by decide
  have hdigit : ∀ k < 16, hexDigit? k.digitChar = some k := by decide
  have hzero : hexDigit? '0' = some 0 := rfl
  have hunit : unit? (hex 4 n ++ r) = some (n, r) := by
    rw [hhex n h]
    simp only [List.cons_append, List.nil_append, unit?, hzero, hdigit (n / 16) (by omega),
      hdigit (n % 16) (by omega), Option.bind_eq_bind, Option.bind_some]
    congr 2
    omega
  have hhigh : isHigh n = false := by simp [isHigh]; omega
  have hlow : isLow n = false := by simp [isLow]; omega
  rw [escapedUnit?, hunit]
  simp [hhigh, hlow]

theorem chars_writeChar (c : Char) {cs s r : List Char} (h : Chars cs s r) :
    Chars (c :: cs) (writeChar c ++ s) r := by
  rw [writeChar]
  cases hshort : shortEscape? c with
  | some e => exact .escape (simpleEscape?_of_shortEscape? hshort) h
  | none =>
    simp only
    split
    case isTrue hcontrol =>
      have hunit := escapedUnit?_hex hcontrol s
      rw [Char.ofNat_toNat] at hunit
      exact .unit hunit h
    case isFalse hplain =>
      refine .plain ?_ ?_ (Nat.not_lt.mp hplain) h
      · rintro rfl
        cases hshort
      · rintro rfl
        cases hshort

theorem chars_flatMap_writeChar (cs r : List Char) :
    Chars cs (cs.flatMap writeChar ++ '"' :: r) r := by
  induction cs with
  | nil => exact .close
  | cons c cs ih =>
    rw [List.flatMap_cons, List.append_assoc]
    exact chars_writeChar c ih

theorem spaces_newline (indent : Nat) (r : List Char) : Spaces (newline indent ++ r) r := by
  refine ⟨newline indent, fun c hc => ?_, rfl⟩
  cases hc with
  | head => decide
  | tail _ hc => exact List.eq_of_mem_replicate hc ▸ by decide

section
variable {room indent : Nat} {r : List Char}

/-- What is written of data is a piece of its value, whatever comes behind it. -/
def Written (room indent : Nat) (d : Data) : Prop :=
  ∀ r, Writes room (.value d.value) (writeAt indent d ++ r) r

theorem writes_items {d : Data} {ds : List Data} (hd : Written room indent d)
    (hds : ∀ e ∈ ds, Written room indent e) {t : List Char} (ht : Spaces t (']' :: r)) :
    Writes room (.items (Data.values (d :: ds))) (writeAt indent d ++ (writeItems indent ds ++ t)) r := by
  induction ds generalizing d with
  | nil => exact .lastItem (hd _) ht
  | cons e ds ih =>
    obtain ⟨he, hds⟩ := List.forall_mem_cons.mp hds
    rw [writeItems]
    simp only [List.append_assoc, List.cons_append]
    exact .item (hd _) ⟨_, ⟨[], by simp, rfl⟩, spaces_newline indent _⟩ (ih he hds)

theorem key_writeText (k : String) (r : List Char) :
    Key k.toList (writeText k.toList ++ ':' :: ' ' :: r) r := by
  refine ⟨k.toList.flatMap writeChar ++ '"' :: ':' :: ' ' :: r, ':' :: ' ' :: r, ?_,
    chars_flatMap_writeChar _ _, ' ' :: r, ⟨[], by simp, rfl⟩, [' '], by simp; decide, rfl⟩
  simp [writeText]

theorem writes_entries {k : String} {d : Data} {es : List (String × Data)} (hd : Written room indent d)
    (hes : ∀ e ∈ es, Written room indent e.2) {t : List Char} (ht : Spaces t ('\x7d' :: r)) :
    Writes room (.entries (Data.pairs ((k, d) :: es)))
      (writeText k.toList ++ ':' :: ' ' :: (writeAt indent d ++ (writeEntries indent es ++ t))) r := by
  have hkey (k : String) (r : List Char) := key_writeText k r
  induction es generalizing k d with
  | nil =>
    have hentry := Writes.lastEntry (hkey k _) (hd _) ht
    rwa [String.ofList_toList] at hentry
  | cons e es ih =>
    obtain ⟨he, hes⟩ := List.forall_mem_cons.mp hes
    rw [writeEntries]
    simp only [List.append_assoc, List.cons_append]
    have hentry := Writes.entry (hkey k _) (hd _)
      ⟨_, ⟨[], by simp, rfl⟩, spaces_newline indent _⟩ (ih (k := e.1) he hes)
    rwa [String.ofList_toList] at hentry

end

theorem writes_signed {room : Nat} {v : Value} {t : List Char} (h : Signed v t) (r : List Char) :
    Writes room (.value v) (t ++ r) r := by
  cases h with
  | plain h => exact .number h
  | negative h => exact .negative h

/-- By induction on the data: a collection is its brackets, and between them its parts two blanks deeper. -/
theorem written {room : Nat} {d : Data} (h : d.Readable room) (indent : Nat) : Written room indent d := by
  induction h generalizing indent with
  | null => exact fun r => .word .null
  | bool b =>
    intro r
    cases b with
    | false => exact .word .false
    | true => exact .word .true
  | int h => exact writes_signed (signed_int h)
  | float s h => exact writes_signed (signed_float h)
  | @text room s =>
    intro r
    have htext : Writes room (.value (.text (String.ofList s.toList))) _ r :=
      .text (chars_flatMap_writeChar s.toList r)
    rw [String.ofList_toList] at htext
    simpa [writeAt, writeText, Data.value] using htext
  | @list room ds _ ih =>
    intro r
    cases ds with
    | nil => exact .noItems ⟨[], by simp, rfl⟩
    | cons d ds =>
      obtain ⟨hd, hds⟩ := List.forall_mem_cons.mp ih
      have hlist := Writes.list (spaces_newline (indent + 2) _)
        (writes_items (hd (indent + 2)) (fun e he => hds e he (indent + 2))
          (spaces_newline indent (']' :: r)))
      simpa [writeAt, Data.value] using hlist
  | @mapping room es _ ih =>
    intro r
    cases es with
    | nil => exact .noEntries ⟨[], by simp, rfl⟩
    | cons e es =>
      obtain ⟨he, hes⟩ := List.forall_mem_cons.mp ih
      have hobject := Writes.object (spaces_newline (indent + 2) _)
        (writes_entries (k := e.1) (he (indent + 2)) (fun f hf => hes f hf (indent + 2))
          (spaces_newline indent ('\x7d' :: r)))
      simpa [writeAt, Data.value] using hobject

end Json
end RouteDoc
