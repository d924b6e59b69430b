import RouteDoc.Proofs.Json.Grammar
/-! What the reader of JSON answers is right: a value that it reads is written in what it has taken, and
it breaks off only where a text comes to an integer of too many digits or to a bracket too many. -/
namespace RouteDoc.Json

structure Sound {α : Type} (room : Nat) (piece : α → Piece) (place : Place) (s : List Char)
    (x : Read α) : Prop where
  ok : ∀ a r, x = .ok (a, r) → Writes room (piece a) s r
  error : ∀ e, x = .error e → e ≠ .malformed → Stops room e place s

namespace Sound
variable {α : Type} {room : Nat} {piece : α → Piece} {place : Place} {s : List Char}

theorem malformed : Sound room piece place s (.error .malformed) where
  ok := nofun
  error _ heq hne := absurd (Except.error.inj heq).symm hne

theorem answer {a : α} {r : List Char} (h : Writes room (piece a) s r) :
    Sound room piece place s (.ok (a, r)) where
  ok _ _ heq := by
    cases heq
    exact h
  error := nofun

theorem stops {e : ReadError} (h : e ≠ .malformed → Stops room e place s) :
    Sound room piece place s (.error e) where
  ok := nofun
  error _ heq hne := by
    cases heq
    exact h hne

/-- A reader that goes on with what another one has read. -/
theorem map {β : Type} {room' : Nat} {piece' : β → Piece} {place' : Place} {t : List Char} {f : α → β}
    {x : Read α} (h : Sound room piece place s x)
    (hok : ∀ a r, Writes room (piece a) s r → Writes room' (piece' (f a)) t r)
    (herror : ∀ e, Stops room e place s → Stops room' e place' t) :
    Sound room' piece' place' t (x.map fun (a, r) => (f a, r)) where
  ok b r heq := by
    obtain ⟨⟨a, r'⟩, hx, heq⟩ := map_eq_ok_iff.mp heq
    cases heq
    exact hok a r (h.ok a r hx)
  error e heq hne := herror e (h.error e (map_eq_error_iff.mp heq) hne)

end Sound

theorem sound_text (room : Nat) (s : List Char) : Sound room .value .value ('"' :: s)
    ((readString (s.length + 1) s).map fun (cs, r) => (.text (String.ofList cs), r)) where
  ok v r h := by
    obtain ⟨⟨cs, r'⟩, hread, heq⟩ := map_eq_ok_iff.mp h
    cases heq
    exact .text (chars_of_readString hread)
  error e h hne := absurd (error_of_readString (map_eq_error_iff.mp h)) hne

theorem sound_word (room : Nat) (s : List Char) : Sound room .value .value s (word s) where
  ok v r h := by
    obtain ⟨w, hw, rfl⟩ := word_eq_ok h
    exact .word hw
  error e h hne := absurd (error_of_word h) hne

theorem sound_number (room : Nat) (s : List Char) :
    Sound room .value .value s (number false s) where
  ok v r h := by
    obtain ⟨t, ht, rfl⟩ := number_eq_ok h
    exact .number ht
  error e h hne := by
    obtain ⟨rfl, w, r, hw, hlong, hr, rfl⟩ := number_eq_error h hne
    exact .number hw hlong hr

theorem sound_negative (room : Nat) (s : List Char) :
    Sound room .value .value ('-' :: s) (number true s) where
  ok v r h := by
    obtain ⟨t, ht, rfl⟩ := number_eq_ok h
    exact .negative ht
  error e h hne := by
    obtain ⟨rfl, w, r, hw, hlong, hr, rfl⟩ := number_eq_error h hne
    exact .negative hw hlong hr

/-- A bracket takes one from the room for what is inside. -/
theorem sound_readValue {n : Nat}
    (hitems : ∀ room s, Sound room .items .items s (readItems room n s))
    (hentries : ∀ room s, Sound room .entries .entries s (readEntries room n s)) (room : Nat)
    (s : List Char) : Sound room .value .value s (readValue room (n + 1) s) := by
  unfold readValue
  split
  case h_1 r => exact sound_text room r
  case h_2 r =>
    have hskip := spaces_skipSpace r
    split
    case h_1 => exact .stops fun _ => .bracket
    case h_2 room =>
      split
      case h_1 r' heq => exact .answer (.noItems (heq ▸ hskip))
      case h_2 => exact (hitems room _).map (fun vs r' h => .list hskip h) fun e h => .list hskip h
  case h_3 r =>
    have hskip := spaces_skipSpace r
    split
    case h_1 => exact .stops fun _ => .brace
    case h_2 room =>
      split
      case h_1 r' heq => exact .answer (.noEntries (heq ▸ hskip))
      case h_2 =>
        exact (hentries room _).map (fun es r' h => .object hskip h) fun e h => .object hskip h
  case h_4 r =>
    split
    case h_1 r' h =>
      rw [afterWord?_eq_some_iff] at h
      exact h ▸ .answer .infinite
    case h_2 => exact sound_negative room r
  case h_5 c r _ _ _ _ =>
    split
    case isTrue => exact sound_number room _
    case isFalse => exact sound_word room _
  case h_6 => exact .malformed

theorem sound_readItems {n room : Nat}
    (hvalue : ∀ s, Sound room .value .value s (readValue room n s))
    (hitems : ∀ s, Sound room .items .items s (readItems room n s)) (s : List Char) :
    Sound room .items .items s (readItems room (n + 1) s) := by
  unfold readItems
  cases hread : readValue room n s with
  | error e => exact .stops fun hne => .item ((hvalue s).error e hread hne)
  | ok p =>
    obtain ⟨v, t⟩ := p
    have hv := (hvalue s).ok v t hread
    have hskip := spaces_skipSpace t
    dsimp only
    split
    case h_1 r heq => exact .answer (.lastItem hv (heq ▸ hskip))
    case h_2 r heq =>
      have hcomma : Marked ',' t (skipSpace r) := ⟨r, heq ▸ hskip, spaces_skipSpace r⟩
      exact (hitems _).map (fun vs r' h => .item hv hcomma h) fun e h => .laterItem hv hcomma h
    case h_3 => exact .malformed

theorem sound_readEntries {n room : Nat}
    (hvalue : ∀ s, Sound room .value .value s (readValue room n s))
    (hentries : ∀ s, Sound room .entries .entries s (readEntries room n s)) (s : List Char) :
    Sound room .entries .entries s (readEntries room (n + 1) s) := by
  unfold readEntries
  split
  case h_2 => exact .malformed
  case h_1 r =>
    split
    case h_1 e h => exact .stops fun hne => absurd (error_of_readString h) hne
    case h_2 key t hchars =>
      split
      case h_2 => exact .malformed
      case h_1 u hcolon =>
        have hkey : Key key ('"' :: r) (skipSpace u) :=
          ⟨r, t, rfl, chars_of_readString hchars, u, hcolon ▸ spaces_skipSpace t, spaces_skipSpace u⟩
        split
        case h_1 e h => exact .stops fun hne => .entry hkey ((hvalue _).error e h hne)
        case h_2 v w hread =>
          have hv := (hvalue _).ok v w hread
          have hskip := spaces_skipSpace w
          dsimp only
          split
          case h_1 r' heq => exact .answer (.lastEntry hkey hv (heq ▸ hskip))
          case h_2 r' heq =>
            have hcomma : Marked ',' w (skipSpace r') := ⟨r', heq ▸ hskip, spaces_skipSpace r'⟩
            exact (hentries _).map (fun vs r'' h => .entry hkey hv hcomma h)
              fun e h => .laterEntry hkey hv hcomma h
          case h_3 => exact .malformed

/-- All three readers are sound, whatever their fuel: without any, they call the text malformed. -/
theorem sound (n : Nat) :
    (∀ room s, Sound room .value .value s (readValue room n s)) ∧
      (∀ room s, Sound room .items .items s (readItems room n s)) ∧
      ∀ room s, Sound room .entries .entries s (readEntries room n s) := by
  induction n with
  | zero => exact ⟨fun _ _ => .malformed, fun _ _ => .malformed, fun _ _ => .malformed⟩
  | succ n ih =>
    obtain ⟨hvalue, hitems, hentries⟩ := ih
    exact ⟨sound_readValue hitems hentries, fun room => sound_readItems (hvalue room) (hitems room),
      fun room => sound_readEntries (hvalue room) (hentries room)⟩

end RouteDoc.Json
