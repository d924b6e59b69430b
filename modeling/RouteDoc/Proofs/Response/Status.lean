import RouteDoc.Proofs.Json.Digits
import RouteDoc.Proofs.Text.Digit
import RouteDoc.Response
/-! Status codes in front of responses. A code is cut off with the blanks behind it, so it has no say in
the response. A code with nothing behind it is not cut off: it is read as a response of its own, a number
or, where no number is written so in JSON, a text. -/
namespace RouteDoc.Response
open Text

structure StatusCode (c : List Char) : Prop where
  length : c.length = 3
  digits : ∀ d ∈ c, isDigit d = true

instance (c : List Char) : Decidable (StatusCode c) :=
  decidable_of_iff (c.length = 3 ∧ c.all isDigit = true) <| by
    rw [List.all_eq_true]
    exact ⟨fun h => ⟨h.1, h.2⟩, fun h => ⟨h.length, h.digits⟩⟩

def StartsWithStatus (s : List Char) : Prop :=
  ∃ c b r, StatusCode c ∧ isBlank b = true ∧ s = c ++ b :: r

theorem not_startsWithStatus_of_length {s : List Char} (h : s.length ≤ 3) : ¬StartsWithStatus s := by
  rintro ⟨c, b, r, hc, -, rfl⟩
  rw [List.length_append, hc.length, List.length_cons] at h
  omega

namespace StatusCode
variable {c : List Char} (hc : StatusCode c)
include hc

theorem eq_triple : ∃ x y z, c = [x, y, z] := List.length_eq_three.mp hc.length

theorem trimmed : Trimmed c :=
  ⟨fun d hd => isBlank_of_isDigit (hc.digits d (List.mem_of_mem_head? hd)),
    fun d hd => isBlank_of_isDigit (hc.digits d (List.mem_of_getLast? hd))⟩

theorem not_startsWithStatus : ¬StartsWithStatus c :=
  not_startsWithStatus_of_length (Nat.le_of_eq hc.length)

theorem dropStatus_append {b : Char} (hb : isBlank b = true) (r : List Char) :
    dropStatus (c ++ b :: r) = trimStart r := by
  obtain ⟨x, y, z, rfl⟩ := hc.eq_triple
  simp [dropStatus, hc.digits x (by simp), hc.digits y (by simp), hc.digits z (by simp), hb]

end StatusCode

theorem dropStatus_of_not {s : List Char} (h : ¬StartsWithStatus s) : dropStatus s = s := by
  unfold dropStatus
  split
  case h_1 x y z b r =>
    split
    case isTrue hcut =>
      simp only [Bool.and_eq_true] at hcut
      obtain ⟨⟨⟨hx, hy⟩, hz⟩, hb⟩ := hcut
      exact absurd ⟨[x, y, z], b, r, ⟨rfl, by simp [hx, hy, hz]⟩, hb, rfl⟩ h
    case isFalse => rfl
  case h_2 => rfl

theorem payloadText_of_not {p : List Char} (hp : Trimmed p) (h : ¬StartsWithStatus p) :
    payloadText (String.ofList p) = String.ofList p := by
  rw [payloadText, String.toList_ofList, dropStatus_of_not h, hp.trim_eq]

theorem payloadText_status {c : List Char} (hc : StatusCode c) {gap : List Char} (hgap : AllBlank gap)
    (hne : gap ≠ []) {p : List Char} (hp : Trimmed p) :
    payloadText (String.ofList (c ++ gap ++ p)) = String.ofList p := by
  obtain ⟨b, g, rfl⟩ := List.exists_cons_of_ne_nil hne
  obtain ⟨hb, hg⟩ := allBlank_cons.mp hgap
  rw [payloadText, String.toList_ofList, List.append_assoc, List.cons_append, hc.dropStatus_append hb,
    trimStart_append hg, hp.trimStart_eq, hp.trim_eq]

theorem fromTag_eq {room : Nat} {q : Query} {content : String}
    (h : Comment.firstTag? "response" q.tags = some content) :
    fromTag room q = if payloadText content = "" then { result := .ok .null }
      else { result := decode room (payloadText content) } := by
  rw [fromTag, h]

/-- What three digits come to: a number, if they are the digits of ASCII and the first is no zero. -/
def codeValue (c : List Char) : Value :=
  if c.all Json.isDigit = true ∧ c.head? ≠ some '0' then .int (Json.value c)
  else .text (String.ofList c)

theorem StatusCode.ofList_ne {c : List Char} (hc : StatusCode c) {s : String}
    (hs : s.toList.length ≠ 3) : String.ofList c ≠ s := by
  rintro rfl
  rw [String.toList_ofList] at hs
  exact hs hc.length

theorem decode_status {c : List Char} (hc : StatusCode c) (room : Nat) :
    decode room (String.ofList c) = .ok (codeValue c) := by
  have hne : c ≠ [] := by
    rintro rfl
    cases hc.length
  have hlimit : c.length ≤ Numeral.digitLimit := by
    rw [hc.length]
    decide
  have hzero : (c.head? = some '0' → c = ['0']) ↔ c.head? ≠ some '0' := by
    constructor
    · intro h hhead
      have hlength := hc.length
      rw [h hhead] at hlength
      cases hlength
    · exact fun h hhead => absurd hhead h
  have hread := Json.read_of_digits hc.digits hne hlimit room
  rw [if_congr (and_congr_right' hzero) rfl rfl] at hread
  rw [decode, String.toList_ofList, hread, codeValue]
  by_cases h : c.all Json.isDigit = true ∧ c.head? ≠ some '0'
  · rw [if_pos h, if_pos h]
  · rw [if_neg h, if_neg h]

theorem toNat_of_isDigit {c : Char} (h : Json.isDigit c = true) (hzero : c ≠ '0') :
    0 < c.toNat - '0'.toNat := by
  have hle : '0'.toNat ≤ c.toNat := by
    simp only [Json.isDigit, Bool.and_eq_true, decide_eq_true_eq] at h
    exact h.1
  have hne : c.toNat ≠ '0'.toNat := fun heq => hzero (Char.toNat_inj.mp heq)
  omega

theorem value_ne_zero {c : Char} (h : Json.isDigit c = true) (hzero : c ≠ '0') (d e : Char) :
    Json.value [c, d, e] ≠ 0 := by
  have hpos := toNat_of_isDigit h hzero
  simp only [Json.value, Numeral.ofDigits, List.map_cons, List.map_nil, List.foldl_cons,
    List.foldl_nil]
  omega

theorem isEmpty_codeValue {c : List Char} (hc : StatusCode c) : isEmpty (codeValue c) = false := by
  rw [codeValue]
  split
  case isTrue h =>
    obtain ⟨hdigits, hhead⟩ := h
    obtain ⟨x, y, z, rfl⟩ := hc.eq_triple
    have hvalue := value_ne_zero (List.all_eq_true.mp hdigits x (by simp)) (by simpa using hhead) y z
    simpa [isEmpty, Value.holds] using hvalue
  case isFalse =>
    simp [isEmpty, hc.ofList_ne (s := "") (by decide), hc.ofList_ne (s := "0") (by decide)]

/-- A status code that is cut off with the blanks behind it has no say in the response. One that has
nothing behind it is a response of its own, and never an empty one. -/
theorem fromTag_status {c : List Char} (hc : StatusCode c) (room : Nat) :
    (∀ gap p, AllBlank gap → gap ≠ [] → Trimmed p → ¬StartsWithStatus p → ∀ q q' : Query,
      Comment.firstTag? "response" q.tags = some (String.ofList (c ++ gap ++ p)) →
      Comment.firstTag? "response" q'.tags = some (String.ofList p) →
        fromTag room q = fromTag room q') ∧
    ∀ q : Query, Comment.firstTag? "response" q.tags = some (String.ofList c) →
      fromTag room q = { result := .ok (codeValue c) } ∧ isEmpty (codeValue c) = false := by
  refine ⟨fun gap p hgap hne hp hstart q q' hq hq' => ?_, fun q hq => ⟨?_, isEmpty_codeValue hc⟩⟩
  · rw [fromTag_eq hq, fromTag_eq hq', payloadText_status hc hgap hne hp, payloadText_of_not hp hstart]
  · rw [fromTag_eq hq, payloadText_of_not hc.trimmed hc.not_startsWithStatus,
      if_neg (hc.ofList_ne (by decide)), decode_status hc room]

def responseQuery (content : String) : Query :=
  { route := ⟨"/users", ["GET"], ⟨"app:Users", "index"⟩⟩, tags := [⟨"response", content⟩] }

theorem fromTag_status_notFound :
    fromTag 900 (responseQuery "404\t \x7b\x7d") = fromTag 900 (responseQuery "\x7b\x7d") ∧
      fromTag 900 (responseQuery "404") = { result := .ok (.int 404) } := by
  obtain ⟨hcut, halone⟩ := fromTag_status (c := "404".toList) (by decide) 900
  exact ⟨hcut ['\t', ' '] "\x7b\x7d".toList (by simp [AllBlank, isBlank]) (by simp) (by decide)
    (not_startsWithStatus_of_length (by decide)) _ _ rfl rfl, (halone _ rfl).1⟩

/-- A tag that holds a status code only has the code for its response, and a tag that holds nothing
has none. -/
theorem fromTag_bareStatus :
    StatusCode "404".toList ∧ Trimmed [] ∧ ¬StartsWithStatus [] ∧
      fromTag 900 (responseQuery "404") = { result := .ok (.int 404) } ∧
      fromTag 900 (responseQuery "") = { result := .ok .null } :=
  ⟨by decide, trimmed_nil, not_startsWithStatus_of_length (by decide), rfl, rfl⟩

end RouteDoc.Response
