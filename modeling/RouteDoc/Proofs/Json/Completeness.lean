import RouteDoc.Proofs.Json.Soundness
/-! What is written in JSON is read: the fuel lasts, and what follows a number ends it. With soundness, the
reader has a value exactly for the documents, and breaks off exactly at integers of too many digits and at
brackets that there is no room for. -/
namespace RouteDoc.Json

section
variable {room n : Nat} {s t u r : List Char} {c : Char}

/-- What starts with a digit is read as a number. -/
theorem readValue_digit (ht : ∃ c u, t = c :: u ∧ isDigit c = true) (room n : Nat)
    (r : List Char) : readValue room (n + 1) (t ++ r) = number false (t ++ r) := by
  obtain ⟨c, u, rfl, hc⟩ := ht
  rw [List.cons_append, readValue, if_pos hc]
  all_goals exact ne_of_holds hc (by decide)

theorem readValue_negative (ht : ∃ c u, t = c :: u ∧ isDigit c = true) (room n : Nat)
    (r : List Char) : readValue room (n + 1) ('-' :: (t ++ r)) = number true (t ++ r) := by
  obtain ⟨c, u, rfl, hc⟩ := ht
  have hword : afterWord? "Infinity" (c :: u ++ r) = none := by
    rw [Option.eq_none_iff_forall_ne_some]
    intro t ht
    rw [afterWord?_eq_some_iff] at ht
    obtain ⟨rfl, -⟩ := List.cons.inj ht
    cases hc
  rw [readValue, hword]

theorem readValue_list (h : Spaces s (c :: t)) (hc : Opening c) :
    readValue (room + 1) (n + 1) ('[' :: s) =
      (readItems room n (c :: t)).map fun (vs, r) => (.list vs, r) := by
  rw [readValue, h.skipSpace_cons hc.space]
  split
  case h_1 heq => exact absurd (List.cons.inj heq).1 hc.bracket
  case h_2 => rfl

theorem readValue_object (h : Spaces s (c :: t)) (hc : Opening c) :
    readValue (room + 1) (n + 1) ('\x7b' :: s) =
      (readEntries room n (c :: t)).map fun (es, r) => (.ofPairs es, r) := by
  rw [readValue, h.skipSpace_cons hc.space]
  split
  case h_1 heq => exact absurd (List.cons.inj heq).1 hc.brace
  case h_2 => rfl

theorem readItems_last {v : Value} (hv : readValue room n s = .ok (v, t)) (h : Spaces t (']' :: r)) :
    readItems room (n + 1) s = .ok ([v], r) := by
  rw [readItems, hv]
  simp only [h.skipSpace_cons (by decide)]

theorem readItems_later {v : Value} (hv : readValue room n s = .ok (v, t)) (h : Marked ',' t (c :: r))
    (hc : Opening c) :
    readItems room (n + 1) s = (readItems room n (c :: r)).map fun (vs, r) => (v :: vs, r) := by
  obtain ⟨u, hcomma, hskip⟩ := h
  rw [readItems, hv]
  simp only [hcomma.skipSpace_cons (by decide), hskip.skipSpace_cons hc.space]

theorem readItems_error {e : ReadError} (hv : readValue room n s = .error e) :
    readItems room (n + 1) s = .error e := by
  rw [readItems, hv]

theorem readEntries_last {key : List Char} {v : Value} (hkey : Key key s (c :: t)) (hc : Opening c)
    (hv : readValue room n (c :: t) = .ok (v, u)) (h : Spaces u ('\x7d' :: r)) :
    readEntries room (n + 1) s = .ok ([(.text (String.ofList key), v)], r) := by
  obtain ⟨k, w, rfl, hchars, x, hcolon, hskip⟩ := hkey
  rw [readEntries, readString_of_chars hchars (Nat.lt_succ_self _)]
  simp only [hcolon.skipSpace_cons (by decide), hskip.skipSpace_cons hc.space, hv,
    h.skipSpace_cons (by decide)]

theorem readEntries_later {key : List Char} {v : Value} {d : Char} (hkey : Key key s (c :: t))
    (hc : Opening c) (hv : readValue room n (c :: t) = .ok (v, u)) (h : Marked ',' u (d :: r))
    (hd : Opening d) : readEntries room (n + 1) s =
      (readEntries room n (d :: r)).map fun (es, r) => ((.text (String.ofList key), v) :: es, r) := by
  obtain ⟨k, w, rfl, hchars, x, hcolon, hskip⟩ := hkey
  obtain ⟨y, hcomma, hnext⟩ := h
  rw [readEntries, readString_of_chars hchars (Nat.lt_succ_self _)]
  simp only [hcolon.skipSpace_cons (by decide), hskip.skipSpace_cons hc.space, hv,
    hcomma.skipSpace_cons (by decide), hnext.skipSpace_cons hd.space]

theorem readEntries_error {key : List Char} {e : ReadError} (hkey : Key key s (c :: t))
    (hc : Opening c) (hv : readValue room n (c :: t) = .error e) :
    readEntries room (n + 1) s = .error e := by
  obtain ⟨k, w, rfl, hchars, x, hcolon, hskip⟩ := hkey
  rw [readEntries, readString_of_chars hchars (Nat.lt_succ_self _)]
  simp only [hcolon.skipSpace_cons (by decide), hskip.skipSpace_cons hc.space, hv]

end

/-- With fuel enough for the text, the piece is read and the rest is left. Items need a step more than
values, because the first of them starts where they do. -/
def Piece.Read (room : Nat) (s r : List Char) : Piece → Prop
  | .value v => ∀ n, 2 * s.length < n → readValue room n s = .ok (v, r)
  | .items vs => ∀ n, 2 * s.length + 1 < n → readItems room n s = .ok (vs, r)
  | .entries es => ∀ n, 2 * s.length < n → readEntries room n s = .ok (es, r)

def Place.BreaksOff (room : Nat) (e : ReadError) (s : List Char) : Place → Prop
  | .value => ∀ n, 2 * s.length < n → readValue room n s = .error e
  | .items => ∀ n, 2 * s.length + 1 < n → readItems room n s = .error e
  | .entries => ∀ n, 2 * s.length < n → readEntries room n s = .error e

theorem exists_fuel {m n : Nat} (h : m < n) : ∃ k, n = k + 1 ∧ m ≤ k := ⟨n - 1, by omega, by omega⟩

/-- What is written is read, by induction on how it is written. Only numbers ask what comes behind them;
behind all inner pieces there are spaces or a mark. -/
theorem Writes.read {room : Nat} {p : Piece} {s r : List Char} (h : Writes room p s r) (hr : Ends r) :
    p.Read room s r := by
  induction h with
  | word hw =>
    intro n hn
    obtain ⟨n, rfl, -⟩ := exists_fuel hn
    cases hw <;> rfl
  | number ht =>
    intro n hn
    obtain ⟨n, rfl, -⟩ := exists_fuel hn
    rw [readValue_digit ht.head, number_append ht hr]
  | negative ht =>
    intro n hn
    obtain ⟨n, rfl, -⟩ := exists_fuel hn
    rw [readValue_negative ht.head, number_append ht hr]
  | infinite =>
    intro n hn
    obtain ⟨n, rfl, -⟩ := exists_fuel hn
    rfl
  | text h =>
    intro n hn
    obtain ⟨n, rfl, -⟩ := exists_fuel hn
    rw [readValue, readString_of_chars h (Nat.lt_succ_self _)]
    rfl
  | noItems h =>
    intro n hn
    obtain ⟨n, rfl, -⟩ := exists_fuel hn
    rw [readValue]
    simp only [h.skipSpace_cons (by decide)]
  | list h hitems ih =>
    intro n hn
    obtain ⟨n, rfl, hle⟩ := exists_fuel hn
    obtain ⟨c, t, rfl, hc⟩ := hitems.head
    have hlen := h.suffix.length_le
    simp only [List.length_cons] at hle
    rw [readValue_list h hc, ih hr n (by omega)]
    rfl
  | noEntries h =>
    intro n hn
    obtain ⟨n, rfl, -⟩ := exists_fuel hn
    rw [readValue]
    simp only [h.skipSpace_cons (by decide)]
  | object h hentries ih =>
    intro n hn
    obtain ⟨n, rfl, hle⟩ := exists_fuel hn
    obtain ⟨c, t, rfl, hc⟩ := hentries.head
    have hlen := h.suffix.length_le
    simp only [List.length_cons] at hle
    rw [readValue_object h hc, ih hr n (by omega)]
    rfl
  | lastItem hv h ih =>
    intro n hn
    obtain ⟨n, rfl, hle⟩ := exists_fuel hn
    have hends : Ends _ := .of_spaces h (.cons (by decide) (by decide) (by decide) (by decide) _)
    exact readItems_last (ih hends n (by omega)) h
  | item hv h hitems ih ih' =>
    intro n hn
    obtain ⟨n, rfl, hle⟩ := exists_fuel hn
    obtain ⟨c, t, rfl, hc⟩ := hitems.head
    have hlt := hv.properSuffix.length_lt
    have hlt' := h.properSuffix.length_lt
    rw [readItems_later (ih h.ends n (by omega)) h hc, ih' hr n (by omega)]
    rfl
  | lastEntry hkey hv h ih =>
    intro n hn
    obtain ⟨n, rfl, hle⟩ := exists_fuel hn
    obtain ⟨c, t, rfl, hc⟩ := hv.head
    have hlt := hkey.properSuffix.length_lt
    have hends : Ends _ := .of_spaces h (.cons (by decide) (by decide) (by decide) (by decide) _)
    exact readEntries_last hkey hc (ih hends n (by omega)) h
  | entry hkey hv h hentries ih ih' =>
    intro n hn
    obtain ⟨n, rfl, hle⟩ := exists_fuel hn
    obtain ⟨c, t, rfl, hc⟩ := hv.head
    obtain ⟨d, t', rfl, hd⟩ := hentries.head
    have hlt := hkey.properSuffix.length_lt
    have hlt' := hv.properSuffix.length_lt
    have hlt'' := h.properSuffix.length_lt
    rw [readEntries_later hkey hc (ih h.ends n (by omega)) h hd, ih' hr n (by omega)]
    rfl

theorem Stops.breaksOff {room : Nat} {e : ReadError} {p : Place} {s : List Char}
    (h : Stops room e p s) : p.BreaksOff room e s := by
  induction h with
  | number hw hlong hr =>
    intro n hn
    obtain ⟨n, rfl, -⟩ := exists_fuel hn
    rw [readValue_digit hw.head, number_of_overlong hw hlong hr]
  | negative hw hlong hr =>
    intro n hn
    obtain ⟨n, rfl, -⟩ := exists_fuel hn
    rw [readValue_negative hw.head, number_of_overlong hw hlong hr]
  | bracket | brace =>
    intro n hn
    obtain ⟨n, rfl, -⟩ := exists_fuel hn
    rfl
  | list h hitems ih =>
    intro n hn
    obtain ⟨n, rfl, hle⟩ := exists_fuel hn
    obtain ⟨c, t, rfl, hc⟩ := hitems.head
    have hlen := h.suffix.length_le
    simp only [List.length_cons] at hle
    rw [readValue_list h hc, ih n (by omega)]
    rfl
  | object h hentries ih =>
    intro n hn
    obtain ⟨n, rfl, hle⟩ := exists_fuel hn
    obtain ⟨c, t, rfl, hc⟩ := hentries.head
    have hlen := h.suffix.length_le
    simp only [List.length_cons] at hle
    rw [readValue_object h hc, ih n (by omega)]
    rfl
  | item _ ih =>
    intro n hn
    obtain ⟨n, rfl, hle⟩ := exists_fuel hn
    exact readItems_error (ih n (by omega))
  | laterItem hv h hitems ih =>
    intro n hn
    obtain ⟨n, rfl, hle⟩ := exists_fuel hn
    obtain ⟨c, t, rfl, hc⟩ := hitems.head
    have hlt := hv.properSuffix.length_lt
    have hlt' := h.properSuffix.length_lt
    rw [readItems_later (hv.read h.ends n (by omega)) h hc, ih n (by omega)]
    rfl
  | entry hkey hv ih =>
    intro n hn
    obtain ⟨n, rfl, hle⟩ := exists_fuel hn
    obtain ⟨c, t, rfl, hc⟩ := hv.head
    have hlt := hkey.properSuffix.length_lt
    exact readEntries_error hkey hc (ih n (by omega))
  | laterEntry hkey hv h hentries ih =>
    intro n hn
    obtain ⟨n, rfl, hle⟩ := exists_fuel hn
    obtain ⟨c, t, rfl, hc⟩ := hv.head
    obtain ⟨d, t', rfl, hd⟩ := hentries.head
    have hlt := hkey.properSuffix.length_lt
    have hlt' := hv.properSuffix.length_lt
    have hlt'' := h.properSuffix.length_lt
    rw [readEntries_later hkey hc (hv.read h.ends n (by omega)) h hd, ih n (by omega)]
    rfl

theorem read_eq_ok_iff {room : Nat} {s : List Char} {v : Value} :
    read room s = .ok v ↔ Document room v s := by
  constructor
  · intro h
    unfold read at h
    split at h
    case h_1 => cases h
    case h_2 w r hread =>
      split at h
      case isFalse => cases h
      case isTrue hend =>
        have hrest := spaces_skipSpace r
        rw [List.isEmpty_iff.mp hend] at hrest
        have hw := ((sound _).1 room _).ok w r hread
        exact ⟨_, r, spaces_skipSpace s, Except.ok.inj h ▸ hw, hrest⟩
  · rintro ⟨t, r, hst, hv, hr⟩
    obtain ⟨c, u, rfl, hc⟩ := hv.head
    have hlen := hst.suffix.length_le
    have hread := hv.read (.of_spaces hr .nil) (2 * s.length + 2) (by omega)
    have hend : (skipSpace r).isEmpty = true := by rw [hr.skipSpace_eq]; rfl
    rw [read, hst.skipSpace_cons hc.space, hread]
    simp only [hend, if_true]

theorem read_eq_error_of_breaks {room : Nat} {e : ReadError} {s : List Char} (h : Breaks room e s) :
    read room s = .error e := by
  obtain ⟨t, hst, hstops⟩ := h
  obtain ⟨c, u, rfl, hc⟩ := hstops.head
  have hlen := hst.suffix.length_le
  have hread := hstops.breaksOff (2 * s.length + 2) (by omega)
  rw [read, hst.skipSpace_cons hc.space, hread]

theorem read_eq_error_iff {room : Nat} {e : ReadError} {s : List Char} (he : e ≠ .malformed) :
    read room s = .error e ↔ Breaks room e s := by
  refine ⟨fun h => ?_, read_eq_error_of_breaks⟩
  unfold read at h
  split at h
  case h_1 f hread =>
    cases h
    exact ⟨_, spaces_skipSpace s, ((sound _).1 room _).error e hread he⟩
  case h_2 =>
    split at h
    · cases h
    · exact absurd (Except.error.inj h).symm he

end RouteDoc.Json
