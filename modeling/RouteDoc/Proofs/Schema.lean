import Mathlib.Data.List.Forall2
import RouteDoc.Schema
/-! What the checks of records accept and what they say of all else. A check gives a result exactly for
the values that read as one, and the violations that it finds lie inside the place that it checks. -/
namespace RouteDoc.Schema
variable {α β : Type}

theorem both_eq_ok_iff {a : Checked α} {b : Checked β} {x : α} {y : β} :
    both a b = .ok (x, y) ↔ a = .ok x ∧ b = .ok y := by
  cases a <;> cases b <;> simp [both]

theorem all_eq_ok_iff {check : Nat → α → Checked β} {R : α → β → Prop}
    (hcheck : ∀ i x y, check i x = .ok y ↔ R x y) (index : Nat) {xs : List α} {ys : List β} :
    all check index xs = .ok ys ↔ List.Forall₂ R xs ys := by
  induction xs generalizing index ys with
  | nil => cases ys <;> simp [all]
  | cons x xs ih =>
    rw [all]
    cases hx : check index x with
    | error vs => cases ys <;> cases all check (index + 1) xs <;> simp [both, ← hcheck index, hx]
    | ok y =>
      cases hxs : all check (index + 1) xs with
      | error vs => cases ys <;> simp [both, ← hcheck index, hx, ← ih (index + 1), hxs]
      | ok ys' => cases ys <;> simp [both, ← hcheck index, hx, ← ih (index + 1), hxs]

inductive ReadsText : Value → String → Prop where
  | text (s : String) : ReadsText (.text s) s
  | bytes {bs : List UInt8} {s : String} (h : ofBytes bs = some s) : ReadsText (.bytes bs) s

theorem text_eq_ok_iff {location : List String} {v : Value} {s : String} :
    text location v = .ok s ↔ ReadsText v s := by
  constructor
  · intro h
    cases v with
    | text t =>
      obtain rfl := Except.ok.inj h
      exact .text t
    | bytes bs =>
      cases hb : ofBytes bs with
      | none => simp [text, hb, fail] at h
      | some t =>
        obtain rfl : t = s := by simpa [text, hb] using h
        exact .bytes hb
    | _ => simp [text, fail] at h
  · intro h
    cases h with
    | text s => rfl
    | bytes h => simp [text, h]

inductive ReadsTextList : Value → List String → Prop where
  | list {xs : List Value} {ss : List String} (h : List.Forall₂ ReadsText xs ss) :
      ReadsTextList (.list xs) ss
  | tuple {xs : List Value} {ss : List String} (h : List.Forall₂ ReadsText xs ss) :
      ReadsTextList (.tuple xs) ss
  | set {xs : List Value} {ss : List String} (h : List.Forall₂ ReadsText xs ss) :
      ReadsTextList (.set xs) ss

theorem textList_eq_ok_iff {location : List String} {v : Value} {ss : List String} :
    textList location v = .ok ss ↔ ReadsTextList v ss := by
  have hall (xs : List Value) :
      all (fun i x => text (location ++ [toString i]) x) 0 xs = .ok ss ↔
        List.Forall₂ ReadsText xs ss :=
    all_eq_ok_iff (R := ReadsText) (fun _ _ _ => text_eq_ok_iff) 0
  constructor
  · intro h
    cases v with
    | list xs => exact .list ((hall xs).mp h)
    | tuple xs => exact .tuple ((hall xs).mp h)
    | set xs => exact .set ((hall xs).mp h)
    | _ => simp [textList, fail] at h
  · intro h
    cases h with
    | list h => exact (hall _).mpr h
    | tuple h => exact (hall _).mpr h
    | set h => exact (hall _).mpr h

inductive ReadsTexts : Value → List (String × String) → Prop where
  | mapping {es : List (Value × Value)} {l : List (String × String)}
      (h : List.Forall₂ (fun e p => ReadsText e.1 p.1 ∧ ReadsText e.2 p.2) es l) :
      ReadsTexts (.mapping es) (Assoc.ofList l)

theorem textMapping_eq_ok_iff {location : List String} {v : Value} {m : List (String × String)} :
    textMapping location v = .ok m ↔ ReadsTexts v m := by
  have hentry (e : Value × Value) (p : String × String) :
      textEntry location e = .ok p ↔ ReadsText e.1 p.1 ∧ ReadsText e.2 p.2 := by
    rw [textEntry, ← text_eq_ok_iff, ← text_eq_ok_iff]
    exact both_eq_ok_iff
  have hall (es : List (Value × Value)) (l : List (String × String)) :
      all (fun _ => textEntry location) 0 es = .ok l ↔
        List.Forall₂ (fun e p => ReadsText e.1 p.1 ∧ ReadsText e.2 p.2) es l :=
    all_eq_ok_iff (fun _ => hentry) 0
  constructor
  · intro h
    cases v with
    | mapping es =>
      cases hes : all (fun _ => textEntry location) 0 es with
      | error vs => simp [textMapping, hes] at h
      | ok l =>
        obtain rfl : Assoc.ofList l = m := by simpa [textMapping, hes] using h
        exact .mapping ((hall es l).mp hes)
    | _ => simp [textMapping, fail] at h
  · intro h
    cases h with
    | @mapping es l h => simp [textMapping, (hall es l).mpr h]

def ReadsNumeral (s : List Char) (n : Int) : Prop := integerText [] s = .ok n

theorem integerText_eq_ok_iff {location : List String} {s : List Char} {n : Int} :
    integerText location s = .ok n ↔ ReadsNumeral s n := by
  rw [ReadsNumeral, integerText, integerText]
  cases plainInteger? s with
  | some p => by_cases hp : p.2.length > Numeral.digitLimit <;> simp [hp, fail]
  | none =>
    cases looseInteger? s with
    | some p => by_cases hp : p.2.length > Numeral.digitLimit <;> simp [hp, fail]
    | none => simp [fail]

/-- An integer, or what counts as one: a truth value, a float without a fraction, a numeral. -/
inductive ReadsInteger : Value → Int → Prop where
  | int (n : Int) : ReadsInteger (.int n) n
  | bool (b : Bool) : ReadsInteger (.bool b) (if b then 1 else 0)
  | float {x : Binary64} {n : Int} (h : x.toInt? = some n) (hsize : n.natAbs < 0x8000000000000000) :
      ReadsInteger (.float x) n
  | text {s : String} {n : Int} (h : ReadsNumeral s.toList n) : ReadsInteger (.text s) n
  | bytes {bs : List UInt8} {s : String} {n : Int} (hs : ofBytes bs = some s)
      (h : ReadsNumeral s.toList n) : ReadsInteger (.bytes bs) n

theorem isFinite_of_toInt? {x : Binary64} {n : Int} (h : x.toInt? = some n) : x.isFinite = true := by
  cases x with
  | finite s m e => rfl
  | _ => cases h

theorem integer_float_eq_ok_iff {location : List String} {x : Binary64} {n : Int} :
    integer location (.float x) = .ok n ↔ x.toInt? = some n ∧ n.natAbs < 0x8000000000000000 := by
  rw [integer]
  cases hx : x.toInt? with
  | none => cases x.isFinite <;> simp [fail]
  | some m =>
    rw [isFinite_of_toInt? hx]
    by_cases hm : m.natAbs < 0x8000000000000000
    · have hiff : m = n ↔ m = n ∧ n.natAbs < 0x8000000000000000 :=
        ⟨fun h => ⟨h, h ▸ hm⟩, fun h => h.1⟩
      simpa [hm] using hiff
    · have hnot : m = n → ¬n.natAbs < 0x8000000000000000 := fun h => h ▸ hm
      simpa [hm, fail] using hnot

theorem integer_eq_ok_iff {location : List String} {v : Value} {n : Int} :
    integer location v = .ok n ↔ ReadsInteger v n := by
  constructor
  · intro h
    cases v with
    | int m =>
      obtain rfl := Except.ok.inj h
      exact .int m
    | bool b =>
      obtain rfl := Except.ok.inj h
      exact .bool b
    | float x =>
      obtain ⟨hx, hsize⟩ := integer_float_eq_ok_iff.mp h
      exact .float hx hsize
    | text s => exact .text (integerText_eq_ok_iff.mp h)
    | bytes bs =>
      cases hb : ofBytes bs with
      | none => simp [integer, hb, fail] at h
      | some s =>
        rw [integer, hb] at h
        exact .bytes hb (integerText_eq_ok_iff.mp h)
    | _ => simp [integer, fail] at h
  · intro h
    cases h with
    | int n => rfl
    | bool b => rfl
    | float hx hsize => exact integer_float_eq_ok_iff.mpr ⟨hx, hsize⟩
    | text h => exact integerText_eq_ok_iff.mpr h
    | bytes hs h =>
      rw [integer, hs]
      exact integerText_eq_ok_iff.mpr h

inductive ReadsOptional (Reads : Value → α → Prop) : Value → Option α → Prop where
  | null : ReadsOptional Reads .null none
  | some {v : Value} {a : α} (hv : v ≠ .null) (h : Reads v a) : ReadsOptional Reads v (some a)

theorem optional_eq_ok_iff {check : Value → Checked α} {Reads : Value → α → Prop}
    (hcheck : ∀ v a, check v = .ok a ↔ Reads v a) {v : Value} {o : Option α} :
    optional check v = .ok o ↔ ReadsOptional Reads v o := by
  by_cases hv : v = .null
  · subst hv
    constructor
    · intro h
      obtain rfl : none = o := Except.ok.inj h
      exact .null
    · intro h
      cases h with
      | null => rfl
      | some hv _ => exact absurd rfl hv
  · have hopt : optional check v = (check v).map some := by
      cases v <;> first | exact absurd rfl hv | rfl
    rw [hopt]
    constructor
    · intro h
      cases hc : check v with
      | error vs => simp [hc, Except.map] at h
      | ok a =>
        obtain rfl : some a = o := by simpa [hc, Except.map] using h
        exact .some hv ((hcheck v a).mp hc)
    · intro h
      cases h with
      | null => exact absurd rfl hv
      | @some _ a _ h => rw [(hcheck v a).mpr h]; rfl

inductive FieldReads (name : String) (default : α) (Reads : Value → α → Prop)
    (fields : List (String × Value)) : α → Prop where
  | absent (h : Assoc.get? name fields = none) : FieldReads name default Reads fields default
  | given {v : Value} {a : α} (h : Assoc.get? name fields = some v) (hv : Reads v a) :
      FieldReads name default Reads fields a

theorem field_eq_ok_iff {name : String} {default : α} {check : List String → Value → Checked α}
    {Reads : Value → α → Prop} (hcheck : ∀ v a, check [name] v = .ok a ↔ Reads v a)
    {fields : List (String × Value)} {a : α} :
    field name default check fields = .ok a ↔ FieldReads name default Reads fields a := by
  rw [field]
  cases hv : Assoc.get? name fields with
  | none =>
    constructor
    · intro h
      obtain rfl := Except.ok.inj h
      exact .absent hv
    · intro h
      cases h with
      | absent _ => rfl
      | given h _ => simp [hv] at h
  | some v =>
    refine (hcheck v a).trans ⟨fun h => .given hv h, fun h => ?_⟩
    cases h with
    | absent h => simp [hv] at h
    | given h hr =>
      obtain rfl := Option.some.inj (hv.symm.trans h)
      exact hr

/-- The keys of a mapping are all texts. -/
theorem textKeyed?_eq_some_iff {es : List (Value × Value)} {fields : List (String × Value)} :
    textKeyed? es = some fields ↔ es = fields.map fun f => (.text f.1, f.2) := by
  induction es generalizing fields with
  | nil => cases fields <;> simp [textKeyed?]
  | cons e es ih =>
    obtain ⟨k, v⟩ := e
    cases k with
    | text s =>
      rw [textKeyed?]
      cases fields with
      | nil => simp
      | cons f fields => simpa [← ih, Prod.ext_iff] using and_comm
    | _ => cases fields <;> simp [textKeyed?]

def Blames (P : Violation → Prop) (c : Checked α) : Prop :=
  ∀ vs, c = .error vs → vs ≠ [] ∧ ∀ v ∈ vs, P v

abbrev Located (location : List String) : Checked α → Prop :=
  Blames fun v => location <+: v.location

theorem blames_ok (P : Violation → Prop) (a : α) : Blames P (.ok a : Checked α) := nofun

theorem Blames.mono {P Q : Violation → Prop} {c : Checked α} (h : Blames P c)
    (hpq : ∀ v, P v → Q v) : Blames Q c := by
  intro vs hvs
  obtain ⟨hne, hall⟩ := h vs hvs
  exact ⟨hne, fun v hv => hpq v (hall v hv)⟩

theorem Blames.map {P : Violation → Prop} {c : Checked α} (h : Blames P c) (f : α → β) :
    Blames P (c.map f) := by
  cases c with
  | error vs => exact fun ws hws => h ws (by simpa [Except.map] using hws)
  | ok a => exact blames_ok P (f a)

theorem Blames.both {P : Violation → Prop} {a : Checked α} {b : Checked β} (ha : Blames P a)
    (hb : Blames P b) : Blames P (both a b) := by
  intro vs hvs
  cases a with
  | ok x =>
    cases b with
    | ok y => cases hvs
    | error f => exact hb vs (by simpa [Schema.both] using hvs)
  | error e =>
    cases b with
    | ok y => exact ha vs (by simpa [Schema.both] using hvs)
    | error f =>
      obtain rfl : e ++ f = vs := by simpa [Schema.both] using hvs
      obtain ⟨hne, he⟩ := ha e rfl
      obtain ⟨-, hf⟩ := hb f rfl
      exact ⟨by simp [hne], List.forall_mem_append.mpr ⟨he, hf⟩⟩

theorem blames_all {P : Violation → Prop} {check : Nat → α → Checked β}
    (hcheck : ∀ i x, Blames P (check i x)) (index : Nat) (xs : List α) :
    Blames P (all check index xs) := by
  induction xs generalizing index with
  | nil => exact blames_ok P []
  | cons x xs ih =>
    have hboth := ((hcheck index x).both (ih (index + 1))).map fun p => p.1 :: p.2
    rw [all]
    cases hc : both (check index x) (all check (index + 1) xs) with
    | ok p => exact blames_ok P _
    | error e => simpa [hc, Except.map] using hboth

theorem located_ok (location : List String) (a : α) : Located location (.ok a : Checked α) := nofun

theorem located_fail (location : List String) (f : Fault) :
    Located location (fail location f : Checked α) := by
  intro vs hvs
  obtain rfl := Except.error.inj hvs
  simp

theorem Blames.outside {location : List String} {c : Checked α} {place : List String}
    (h : Located (location ++ place) c) : Located location c :=
  h.mono fun _ hv => (List.prefix_append location place).trans hv

theorem located_text (location : List String) (v : Value) : Located location (text location v) := by
  cases v with
  | text s => exact located_ok location s
  | bytes bs =>
    rw [text]
    cases ofBytes bs with
    | none => exact located_fail location _
    | some s => exact located_ok location s
  | _ => exact located_fail location _

theorem located_textMapping (location : List String) (v : Value) :
    Located location (textMapping location v) := by
  have hentry (i : Nat) (e : Value × Value) : Located location (textEntry location e) :=
    (located_text _ e.1).outside.both (located_text _ e.2).outside
  cases v with
  | mapping es =>
    have hall := (blames_all hentry 0 es).map Assoc.ofList
    rw [textMapping]
    cases hes : all (fun _ => textEntry location) 0 es with
    | ok l => exact located_ok location _
    | error e => simpa [hes, Except.map] using hall
  | _ => exact located_fail location _

theorem located_integerText (location : List String) (s : List Char) :
    Located location (integerText location s) := by
  have hfail (f : Fault) : Located location (fail location f : Checked Int) :=
    located_fail location f
  rw [integerText]
  cases plainInteger? s with
  | some p => by_cases hp : p.2.length > Numeral.digitLimit <;> simp [hp, hfail, located_ok]
  | none =>
    cases looseInteger? s with
    | some p => by_cases hp : p.2.length > Numeral.digitLimit <;> simp [hp, hfail, located_ok]
    | none => exact hfail _

theorem located_integer (location : List String) (v : Value) :
    Located location (integer location v) := by
  have hfail (f : Fault) : Located location (fail location f : Checked Int) :=
    located_fail location f
  cases v with
  | int n => exact located_ok location n
  | bool b => exact located_ok location _
  | float x =>
    rw [integer]
    cases x.isFinite with
    | false => exact hfail _
    | true =>
      cases x.toInt? with
      | none => exact hfail _
      | some n => by_cases hn : n.natAbs < 0x8000000000000000 <;> simp [hn, hfail, located_ok]
  | text s => exact located_integerText location s.toList
  | bytes bs =>
    rw [integer]
    cases ofBytes bs with
    | none => exact hfail _
    | some s => exact located_integerText location s.toList
  | _ => exact hfail _

theorem located_optional {location : List String} {check : Value → Checked α}
    (hcheck : ∀ v, Located location (check v)) (v : Value) : Located location (optional check v) := by
  cases v with
  | null => exact located_ok location none
  | _ => exact (hcheck _).map some

theorem located_field {name : String} {default : α} {check : List String → Value → Checked α}
    (hcheck : ∀ v, Located [name] (check [name] v)) (fields : List (String × Value)) :
    Located [name] (field name default check fields) := by
  rw [field]
  cases Assoc.get? name fields with
  | none => exact located_ok [name] default
  | some v => exact hcheck v

end RouteDoc.Schema
