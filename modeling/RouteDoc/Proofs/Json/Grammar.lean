import RouteDoc.Proofs.Json.Numbers
import RouteDoc.Proofs.Json.Tokens
/-! The grammar of JSON as it is read here, apart from any reader: what a text writes, and where a text
that is well formed so far comes to an integer of too many digits or to a bracket too many. -/
namespace RouteDoc.Json

inductive Piece where
  | value (v : Value)
  | items (vs : List Value)
  | entries (es : List (Value × Value))

def Marked (mark : Char) (s r : List Char) : Prop := ∃ t, Spaces s (mark :: t) ∧ Spaces t r

def Key (key s r : List Char) : Prop := ∃ t u, s = '"' :: t ∧ Chars key t u ∧ Marked ':' u r

/-- The text `s` writes a piece and leaves `r`, with brackets nested `room` deep at most. -/
inductive Writes : Nat → Piece → List Char → List Char → Prop
  | word {room : Nat} {v : Value} {w r : List Char} : Word v w → Writes room (.value v) (w ++ r) r
  | number {room : Nat} {v : Value} {t r : List Char} : Number false v t →
      Writes room (.value v) (t ++ r) r
  | negative {room : Nat} {v : Value} {t r : List Char} : Number true v t →
      Writes room (.value v) ('-' :: (t ++ r)) r
  | infinite {room : Nat} {r : List Char} :
      Writes room (.value (.float (.infinite true))) ('-' :: ("Infinity".toList ++ r)) r
  | text {room : Nat} {cs s r : List Char} : Chars cs s r →
      Writes room (.value (.text (String.ofList cs))) ('"' :: s) r
  | noItems {room : Nat} {s r : List Char} : Spaces s (']' :: r) →
      Writes (room + 1) (.value (.list [])) ('[' :: s) r
  | list {room : Nat} {vs : List Value} {s t r : List Char} : Spaces s t →
      Writes room (.items vs) t r → Writes (room + 1) (.value (.list vs)) ('[' :: s) r
  | noEntries {room : Nat} {s r : List Char} : Spaces s ('\x7d' :: r) →
      Writes (room + 1) (.value (.mapping [])) ('\x7b' :: s) r
  | object {room : Nat} {es : List (Value × Value)} {s t r : List Char} : Spaces s t →
      Writes room (.entries es) t r → Writes (room + 1) (.value (.ofPairs es)) ('\x7b' :: s) r
  | lastItem {room : Nat} {v : Value} {s t r : List Char} : Writes room (.value v) s t →
      Spaces t (']' :: r) → Writes room (.items [v]) s r
  | item {room : Nat} {v : Value} {vs : List Value} {s t u r : List Char} :
      Writes room (.value v) s t → Marked ',' t u → Writes room (.items vs) u r →
      Writes room (.items (v :: vs)) s r
  | lastEntry {room : Nat} {key : List Char} {v : Value} {s t u r : List Char} : Key key s t →
      Writes room (.value v) t u → Spaces u ('\x7d' :: r) →
      Writes room (.entries [(.text (String.ofList key), v)]) s r
  | entry {room : Nat} {key : List Char} {v : Value} {es : List (Value × Value)}
      {s t u w r : List Char} : Key key s t → Writes room (.value v) t u → Marked ',' u w →
      Writes room (.entries es) w r →
      Writes room (.entries ((.text (String.ofList key), v) :: es)) s r

inductive Place where
  | value
  | items
  | entries

/-- What is well formed up to an integer of too many digits, or to a bracket that there is no room for;
nothing is said of what comes behind it. -/
inductive Stops : Nat → ReadError → Place → List Char → Prop
  | number {room : Nat} {w r : List Char} : Whole w → Numeral.digitLimit < w.length → Ends r →
      Stops room .tooManyDigits .value (w ++ r)
  | negative {room : Nat} {w r : List Char} : Whole w → Numeral.digitLimit < w.length → Ends r →
      Stops room .tooManyDigits .value ('-' :: (w ++ r))
  | bracket {s : List Char} : Stops 0 .tooDeep .value ('[' :: s)
  | brace {s : List Char} : Stops 0 .tooDeep .value ('\x7b' :: s)
  | list {room : Nat} {e : ReadError} {s t : List Char} : Spaces s t → Stops room e .items t →
      Stops (room + 1) e .value ('[' :: s)
  | object {room : Nat} {e : ReadError} {s t : List Char} : Spaces s t → Stops room e .entries t →
      Stops (room + 1) e .value ('\x7b' :: s)
  | item {room : Nat} {e : ReadError} {s : List Char} : Stops room e .value s →
      Stops room e .items s
  | laterItem {room : Nat} {e : ReadError} {v : Value} {s t u : List Char} :
      Writes room (.value v) s t → Marked ',' t u → Stops room e .items u → Stops room e .items s
  | entry {room : Nat} {e : ReadError} {key s t : List Char} : Key key s t →
      Stops room e .value t → Stops room e .entries s
  | laterEntry {room : Nat} {e : ReadError} {key : List Char} {v : Value} {s t u w : List Char} :
      Key key s t → Writes room (.value v) t u → Marked ',' u w → Stops room e .entries w →
      Stops room e .entries s

def Document (room : Nat) (v : Value) (s : List Char) : Prop :=
  ∃ t r, Spaces s t ∧ Writes room (.value v) t r ∧ Spaces r []

def Breaks (room : Nat) (e : ReadError) (s : List Char) : Prop :=
  ∃ t, Spaces s t ∧ Stops room e .value t

structure Opening (c : Char) : Prop where
  space : isSpace c = false
  bracket : c ≠ ']'
  brace : c ≠ '\x7d'

instance (c : Char) : Decidable (Opening c) :=
  decidable_of_iff (isSpace c = false ∧ c ≠ ']' ∧ c ≠ '\x7d')
    ⟨fun h => ⟨h.1, h.2.1, h.2.2⟩, fun h => ⟨h.space, h.bracket, h.brace⟩⟩

theorem Opening.of_digit {c : Char} (hc : isDigit c = true) : Opening c := by
  have hne {d : Char} (hd : isDigit d = false) : c ≠ d := ne_of_holds hc hd
  refine ⟨?_, hne (by decide), hne (by decide)⟩
  simp [isSpace, hne (show isDigit ' ' = false by decide), hne (show isDigit '\t' = false by decide),
    hne (show isDigit '\n' = false by decide), hne (show isDigit '\r' = false by decide)]

theorem Whole.head {w : List Char} (h : Whole w) : ∃ c t, w = c :: t ∧ isDigit c = true := by
  cases h with
  | zero => exact ⟨_, _, rfl, by decide⟩
  | digits hds =>
    obtain ⟨c, t, rfl⟩ := List.exists_cons_of_ne_nil hds.ne
    exact ⟨c, t, rfl, hds.all c (by simp)⟩

theorem Number.head {negative : Bool} {v : Value} {t : List Char} (h : Number negative v t) :
    ∃ c u, t = c :: u ∧ isDigit c = true := by
  cases h with
  | int hw => exact hw.head
  | float hw =>
    obtain ⟨c, u, rfl, hc⟩ := hw.head
    exact ⟨c, _, rfl, hc⟩

theorem Writes.head {room : Nat} {p : Piece} {s r : List Char} (h : Writes room p s r) :
    ∃ c t, s = c :: t ∧ Opening c := by
  induction h with
  | word hw => cases hw <;> exact ⟨_, _, rfl, by decide⟩
  | number ht =>
    obtain ⟨c, u, rfl, hc⟩ := ht.head
    exact ⟨c, _, rfl, .of_digit hc⟩
  | lastItem _ _ ih | item _ _ _ ih => exact ih
  | lastEntry hkey | entry hkey =>
    obtain ⟨t, u, rfl, -⟩ := hkey
    exact ⟨_, _, rfl, by decide⟩
  | _ => exact ⟨_, _, rfl, by decide⟩

theorem Stops.head {room : Nat} {e : ReadError} {p : Place} {s : List Char} (h : Stops room e p s) :
    ∃ c t, s = c :: t ∧ Opening c := by
  induction h with
  | number hw =>
    obtain ⟨c, u, rfl, hc⟩ := hw.head
    exact ⟨c, _, rfl, .of_digit hc⟩
  | item _ ih => exact ih
  | laterItem hv => exact hv.head
  | entry hkey | laterEntry hkey =>
    obtain ⟨t, u, rfl, -⟩ := hkey
    exact ⟨_, _, rfl, by decide⟩
  | _ => exact ⟨_, _, rfl, by decide⟩

theorem Stops.ne_malformed {room : Nat} {e : ReadError} {p : Place} {s : List Char}
    (h : Stops room e p s) : e ≠ .malformed := by
  induction h with
  | number | negative | bracket | brace => simp
  | list _ _ ih | object _ _ ih | item _ ih | laterItem _ _ _ ih | entry _ _ ih
  | laterEntry _ _ _ _ ih => exact ih

theorem Ends.of_spaces {s r : List Char} (h : Spaces s r) (hr : Ends r) : Ends s := by
  obtain ⟨gap, hgap, rfl⟩ := h
  cases gap with
  | nil => exact hr
  | cons c gap =>
    have hc : isSpace c = true := hgap c (by simp)
    simp only [isSpace, Bool.or_eq_true, decide_eq_true_eq] at hc
    obtain ((rfl | rfl) | rfl) | rfl := hc
    all_goals exact .cons (by decide) (by decide) (by decide) (by decide) _

theorem Marked.ends {s r : List Char} (h : Marked ',' s r) : Ends s := by
  obtain ⟨t, ht, -⟩ := h
  exact .of_spaces ht (.cons (by decide) (by decide) (by decide) (by decide) t)

theorem Marked.properSuffix {mark : Char} {s r : List Char} (h : Marked mark s r) :
    ProperSuffix r s := by
  obtain ⟨t, ht, hr⟩ := h
  exact .trans_suffix (.cons hr.suffix) ht.suffix

theorem Key.properSuffix {key s r : List Char} (h : Key key s r) : ProperSuffix r s := by
  obtain ⟨t, u, rfl, hchars, hcolon⟩ := h
  exact .cons (hcolon.properSuffix.suffix.trans hchars.properSuffix.suffix)

theorem Writes.properSuffix {room : Nat} {p : Piece} {s r : List Char} (h : Writes room p s r) :
    ProperSuffix r s := by
  induction h with
  | word hw => exact .append (by cases hw <;> simp) _
  | number ht =>
    obtain ⟨c, u, rfl, -⟩ := ht.head
    exact .append (by simp) _
  | negative | infinite => exact .cons (List.suffix_append _ _)
  | text h => exact .cons h.properSuffix.suffix
  | noItems h | noEntries h => exact .cons ((List.suffix_cons _ _).trans h.suffix)
  | list h _ ih | object h _ ih => exact .cons (ih.suffix.trans h.suffix)
  | lastItem _ h ih => exact .trans_suffix (.trans_suffix (.cons List.suffix_rfl) h.suffix) ih.suffix
  | item _ h _ ih ih' => exact ih'.trans_suffix (h.properSuffix.suffix.trans ih.suffix)
  | lastEntry hkey _ h ih =>
    exact .trans_suffix (.trans_suffix (.cons List.suffix_rfl) h.suffix)
      (ih.suffix.trans hkey.properSuffix.suffix)
  | entry hkey _ h _ ih ih' =>
    exact ih'.trans_suffix
      ((h.properSuffix.suffix.trans ih.suffix).trans hkey.properSuffix.suffix)

theorem Whole.toDigits {w : List Char} (h : Whole w) : Digits w := by
  cases h with
  | zero => exact ⟨by simp, fun d hd => List.mem_singleton.mp hd ▸ rfl⟩
  | digits hds => exact hds

/-- Where a text comes to an integer of too many digits, it has a run of as many digits. -/
theorem Stops.exists_digits {room : Nat} {p : Place} {s : List Char}
    (h : Stops room .tooManyDigits p s) :
    ∃ w, w <:+: s ∧ Digits w ∧ Numeral.digitLimit < w.length := by
  have hwider {s t : List Char} (hts : t <:+ s)
      (ht : ∃ w, w <:+: t ∧ Digits w ∧ Numeral.digitLimit < w.length) :
      ∃ w, w <:+: s ∧ Digits w ∧ Numeral.digitLimit < w.length := by
    obtain ⟨w, hw, h⟩ := ht
    exact ⟨w, hw.trans hts.isInfix, h⟩
  generalize he : ReadError.tooManyDigits = e at h
  induction h with
  | number hw hlong => exact ⟨_, (List.prefix_append _ _).isInfix, hw.toDigits, hlong⟩
  | negative hw hlong =>
    exact hwider (List.suffix_cons _ _) ⟨_, (List.prefix_append _ _).isInfix, hw.toDigits, hlong⟩
  | bracket | brace => cases he
  | list h _ ih | object h _ ih => exact hwider (h.suffix.trans (List.suffix_cons _ _)) (ih he)
  | item _ ih => exact ih he
  | laterItem hv h _ ih => exact hwider (h.properSuffix.suffix.trans hv.properSuffix.suffix) (ih he)
  | entry hkey _ ih => exact hwider hkey.properSuffix.suffix (ih he)
  | laterEntry hkey hv h _ ih =>
    exact hwider ((h.properSuffix.suffix.trans hv.properSuffix.suffix).trans
      hkey.properSuffix.suffix) (ih he)

/-- Brackets among the characters of a text, more than there is room for. -/
def Crowded (room : Nat) (s : List Char) : Prop :=
  ∃ bs : List Char, bs.Sublist s ∧ (∀ b ∈ bs, b = '[' ∨ b = '\x7b') ∧ room < bs.length

theorem Crowded.of_suffix {room : Nat} {s t : List Char} (h : Crowded room t) (hts : t <:+ s) :
    Crowded room s := by
  obtain ⟨bs, hbs, h⟩ := h
  exact ⟨bs, hbs.trans hts.sublist, h⟩

theorem Crowded.cons {room : Nat} {s : List Char} {b : Char} (h : Crowded room s)
    (hb : b = '[' ∨ b = '\x7b') : Crowded (room + 1) (b :: s) := by
  obtain ⟨bs, hbs, hall, hlen⟩ := h
  refine ⟨b :: bs, hbs.cons_cons b, fun c hc => ?_, Nat.succ_lt_succ hlen⟩
  cases hc with
  | head => exact hb
  | tail _ hc => exact hall c hc

/-- Where a text comes to a bracket without room, it has more brackets than there is room for. -/
theorem Stops.crowded {room : Nat} {p : Place} {s : List Char} (h : Stops room .tooDeep p s) :
    Crowded room s := by
  generalize he : ReadError.tooDeep = e at h
  induction h with
  | number | negative => cases he
  | @bracket s => exact ⟨['['], by simp, by simp, by simp⟩
  | @brace s => exact ⟨['\x7b'], by simp, by simp, by simp⟩
  | list h _ ih => exact ((ih he).of_suffix h.suffix).cons (.inl rfl)
  | object h _ ih => exact ((ih he).of_suffix h.suffix).cons (.inr rfl)
  | item _ ih => exact ih he
  | laterItem hv h _ ih => exact (ih he).of_suffix (h.properSuffix.suffix.trans hv.properSuffix.suffix)
  | entry hkey _ ih => exact (ih he).of_suffix hkey.properSuffix.suffix
  | laterEntry hkey hv h _ ih =>
    exact (ih he).of_suffix ((h.properSuffix.suffix.trans hv.properSuffix.suffix).trans
      hkey.properSuffix.suffix)

end RouteDoc.Json
