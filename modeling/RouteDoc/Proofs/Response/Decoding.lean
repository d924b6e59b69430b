import RouteDoc.Proofs.Json.Completeness
import RouteDoc.Proofs.Response.Status
/-! What the text of a sample response comes to, in a tag or in a file: the value that it writes in JSON,
else the text itself. A text that comes to an integer of too many digits, or to a bracket that there is no
room for, comes to neither; of a file, the name or the bytes may also fail. -/
namespace RouteDoc.Response
open Text
variable {room : Nat}

inductive Decodes (room : Nat) (s : String) : Except ResponseError Value → Prop
  | value {v : Value} : Json.Document room v s.toList → Decodes room s (.ok v)
  | text : (∀ v, ¬Json.Document room v s.toList) → (∀ e, ¬Json.Breaks room e s.toList) →
      Decodes room s (.ok (.text s))
  | tooLong : Json.Breaks room .tooManyDigits s.toList → Decodes room s (.error .tooManyDigits)
  | tooDeep : Json.Breaks room .tooDeep s.toList → Decodes room s (.error .tooDeep)

theorem decode_eq_iff {s : String} {x : Except ResponseError Value} :
    decode room s = x ↔ Decodes room s x := by
  constructor
  · rintro rfl
    rw [decode]
    split
    case h_1 v h => exact .value (Json.read_eq_ok_iff.mp h)
    case h_2 h =>
      refine .text (fun v hv => ?_) fun e he => ?_
      · rw [Json.read_eq_ok_iff.mpr hv] at h
        cases h
      · rw [Json.read_eq_error_of_breaks he] at h
        obtain ⟨t, -, hstops⟩ := he
        exact hstops.ne_malformed (Except.error.inj h)
    case h_3 h => exact .tooLong ((Json.read_eq_error_iff (by simp)).mp h)
    case h_4 h => exact .tooDeep ((Json.read_eq_error_iff (by simp)).mp h)
  · intro h
    cases h with
    | value h => rw [decode, Json.read_eq_ok_iff.mpr h]
    | tooLong h => rw [decode, Json.read_eq_error_of_breaks h]
    | tooDeep h => rw [decode, Json.read_eq_error_of_breaks h]
    | text hvalue hbreaks =>
      cases hread : Json.read room s.toList with
      | ok v => exact absurd (Json.read_eq_ok_iff.mp hread) (hvalue v)
      | error e =>
        cases e with
        | malformed => rw [decode, hread]
        | tooManyDigits | tooDeep =>
          exact absurd ((Json.read_eq_error_iff (by simp)).mp hread) (hbreaks _)

inductive TagAnswer (room : Nat) (q : Query) : Outcome ResponseError Value → Prop
  | noTag : Comment.firstTag? "response" q.tags = .none → TagAnswer room q { result := .ok .null }
  | noText {content : String} : Comment.firstTag? "response" q.tags = some content →
      payloadText content = "" → TagAnswer room q { result := .ok .null }
  | text {content : String} {x : Except ResponseError Value} :
      Comment.firstTag? "response" q.tags = some content → payloadText content ≠ "" →
      Decodes room (payloadText content) x → TagAnswer room q { result := x }

theorem fromTag_eq_iff {q : Query} {o : Outcome ResponseError Value} :
    fromTag room q = o ↔ TagAnswer room q o := by
  constructor
  · rintro rfl
    rw [fromTag]
    split
    case h_1 h => exact .noTag h
    case h_2 content h =>
      split
      case isTrue hempty => exact .noText h hempty
      case isFalse hne => exact .text h hne (decode_eq_iff.mp rfl)
  · intro h
    cases h with
    | noTag h => rw [fromTag, h]
    | noText h hempty => rw [fromTag_eq h, if_pos hempty]
    | text h hne hx => rw [fromTag_eq h, if_neg hne, decode_eq_iff.mpr hx]

def filePath (dir : Path) (content : String) : Path := dir.join (.ofText (payloadText content))

inductive FileAnswer (room : Nat) (files : FileTree) (dir : Path) (q : Query) :
    Outcome ResponseError Value → Prop
  | noTag : Comment.firstTag? "responseFile" q.tags = .none →
      FileAnswer room files dir q { result := .ok .null }
  | missing {content : String} {e : FileError} :
      Comment.firstTag? "responseFile" q.tags = some content →
      files.readBytes (filePath dir content) = .error e → e ≠ .nameTooLong →
      FileAnswer room files dir q
        ⟨.ok .null, [.responseFileMissing (filePath dir content) q.route.uri]⟩
  | nameTooLong {content : String} : Comment.firstTag? "responseFile" q.tags = some content →
      files.readBytes (filePath dir content) = .error .nameTooLong →
      FileAnswer room files dir q { result := .error .nameTooLong }
  | notText {content : String} {bytes : List UInt8} :
      Comment.firstTag? "responseFile" q.tags = some content →
      files.readBytes (filePath dir content) = .ok bytes → ofFile? bytes = .none →
      FileAnswer room files dir q { result := .error (.notText (filePath dir content) q.route.uri) }
  | text {content s : String} {bytes : List UInt8} {x : Except ResponseError Value} :
      Comment.firstTag? "responseFile" q.tags = some content →
      files.readBytes (filePath dir content) = .ok bytes → ofFile? bytes = some s →
      Decodes room s x → FileAnswer room files dir q { result := x }

theorem fromFile_eq_iff {files : FileTree} {dir : Path} {q : Query}
    {o : Outcome ResponseError Value} : fromFile room files dir q = o ↔ FileAnswer room files dir q o := by
  constructor
  · rintro rfl
    rw [fromFile]
    split
    case h_1 h => exact .noTag h
    case h_2 content h =>
      dsimp only
      split
      case h_1 hread => exact .nameTooLong h hread
      case h_2 e hne hread => exact .missing h hread fun heq => hne heq
      case h_3 bytes hread =>
        split
        case h_1 hbytes => exact .notText h hread hbytes
        case h_2 s hbytes => exact .text h hread hbytes (decode_eq_iff.mp rfl)
  · intro h
    cases h with
    | noTag h => rw [fromFile, h]
    | missing h hread hne =>
      unfold filePath at hread ⊢
      simp only [fromFile, h, hread]
    | nameTooLong h hread =>
      unfold filePath at hread
      simp only [fromFile, h, hread]
    | notText h hread hbytes =>
      unfold filePath at hread ⊢
      simp only [fromFile, h, hread, hbytes]
    | text h hread hbytes hx =>
      unfold filePath at hread
      simp only [fromFile, h, hread, hbytes, decode_eq_iff.mpr hx]

inductive BreaksOff (room : Nat) (s : String) : ResponseError → Prop
  | tooLong : Json.Breaks room .tooManyDigits s.toList → BreaksOff room s .tooManyDigits
  | tooDeep : Json.Breaks room .tooDeep s.toList → BreaksOff room s .tooDeep

theorem decodes_error_iff {s : String} {e : ResponseError} :
    Decodes room s (.error e) ↔ BreaksOff room s e := by
  constructor
  · intro h
    cases h with
    | tooLong h => exact .tooLong h
    | tooDeep h => exact .tooDeep h
  · intro h
    cases h with
    | tooLong h => exact .tooLong h
    | tooDeep h => exact .tooDeep h

theorem BreaksOff.ne_empty {s : String} {e : ResponseError} (h : BreaksOff room s e) : s ≠ "" := by
  rintro rfl
  cases h with
  | tooLong h => cases Json.read_eq_error_of_breaks h
  | tooDeep h => cases Json.read_eq_error_of_breaks h

theorem fromTag_fails_iff {q : Query} {e : ResponseError} :
    (fromTag room q).result = .error e ↔
      ∃ content, Comment.firstTag? "response" q.tags = some content ∧
        BreaksOff room (payloadText content) e := by
  constructor
  · intro h
    generalize hanswer : fromTag room q = o at h
    cases fromTag_eq_iff.mp hanswer with
    | noTag => cases h
    | noText => cases h
    | text htag _ hdecodes =>
      cases h
      exact ⟨_, htag, decodes_error_iff.mp hdecodes⟩
  · rintro ⟨content, htag, hbreaks⟩
    rw [fromTag_eq_iff.mpr (.text htag hbreaks.ne_empty (decodes_error_iff.mpr hbreaks))]

/-- Why the file that a tag names gives no response. -/
inductive FileFails (room : Nat) (files : FileTree) (path : Path) (uri : String) :
    ResponseError → Prop
  | nameTooLong : files.readBytes path = .error .nameTooLong →
      FileFails room files path uri .nameTooLong
  | notText {bytes : List UInt8} : files.readBytes path = .ok bytes → ofFile? bytes = .none →
      FileFails room files path uri (.notText path uri)
  | text {bytes : List UInt8} {s : String} {e : ResponseError} : files.readBytes path = .ok bytes →
      ofFile? bytes = some s → BreaksOff room s e → FileFails room files path uri e

theorem fromFile_fails_iff {files : FileTree} {dir : Path} {q : Query} {e : ResponseError} :
    (fromFile room files dir q).result = .error e ↔
      ∃ content, Comment.firstTag? "responseFile" q.tags = some content ∧
        FileFails room files (filePath dir content) q.route.uri e := by
  constructor
  · intro h
    generalize hanswer : fromFile room files dir q = o at h
    cases fromFile_eq_iff.mp hanswer with
    | noTag => cases h
    | missing => cases h
    | nameTooLong htag hread =>
      cases h
      exact ⟨_, htag, .nameTooLong hread⟩
    | notText htag hread hbytes =>
      cases h
      exact ⟨_, htag, .notText hread hbytes⟩
    | text htag hread hbytes hdecodes =>
      cases h
      exact ⟨_, htag, .text hread hbytes (decodes_error_iff.mp hdecodes)⟩
  · rintro ⟨content, htag, hfails⟩
    cases hfails with
    | nameTooLong hread => rw [fromFile_eq_iff.mpr (.nameTooLong htag hread)]
    | notText hread hbytes => rw [fromFile_eq_iff.mpr (.notText htag hread hbytes)]
    | text hread hbytes hbreaks =>
      rw [fromFile_eq_iff.mpr (.text htag hread hbytes (decodes_error_iff.mpr hbreaks))]

/-- A run of one character that is no blank is decoded as it stands. -/
theorem payloadText_replicate {c : Char} (hc : isBlank c = false) (n : Nat) :
    payloadText (String.ofList (List.replicate n c)) = String.ofList (List.replicate n c) := by
  have hmem {d : Char} (hd : d ∈ List.replicate n c) : isBlank d = false := by
    rwa [List.eq_of_mem_replicate hd]
  refine payloadText_of_not ⟨fun d hd => hmem (List.mem_of_mem_head? hd),
    fun d hd => hmem (List.mem_of_getLast? hd)⟩ ?_
  rintro ⟨code, b, r, -, hb, heq⟩
  have hblank : isBlank b = false := hmem (by simp [heq])
  simp [hb] at hblank

theorem fromTag_replicate {c : Char} (hc : isBlank c = false) {n : Nat} {e : ResponseError}
    (h : BreaksOff room (String.ofList (List.replicate n c)) e) :
    fromTag room (responseQuery (String.ofList (List.replicate n c))) = { result := .error e } := by
  rw [← payloadText_replicate hc] at h
  exact fromTag_eq_iff.mpr (.text rfl h.ne_empty (decodes_error_iff.mpr h))

def overlongInteger : List Char := List.replicate (Numeral.digitLimit + 1) '1'

theorem digits_overlongInteger : Json.Digits overlongInteger where
  ne := by simp [overlongInteger]
  all d hd := by
    have hd : d = '1' := List.eq_of_mem_replicate hd
    rw [hd]
    decide

theorem breaks_overlongInteger (room : Nat) : Json.Breaks room .tooManyDigits overlongInteger := by
  have hwhole : Json.Whole overlongInteger :=
    .digits digits_overlongInteger (by simp [overlongInteger, List.head?_replicate])
  have hlong : Numeral.digitLimit < overlongInteger.length := by simp [overlongInteger]
  have hstops : Json.Stops room _ _ (overlongInteger ++ []) := .number hwhole hlong .nil
  rw [List.append_nil] at hstops
  exact ⟨overlongInteger, ⟨[], by simp, rfl⟩, hstops⟩

def brackets (room : Nat) : List Char := List.replicate (room + 1) '['

theorem stops_brackets (room : Nat) : Json.Stops room .tooDeep .value (brackets room) := by
  induction room with
  | zero => exact .bracket
  | succ room ih => exact .list ⟨[], by simp, rfl⟩ (.item ih)

theorem breaks_brackets (room : Nat) : Json.Breaks room .tooDeep (brackets room) :=
  ⟨brackets room, ⟨[], by simp, rfl⟩, stops_brackets room⟩

def fileQuery (content : String) : Query :=
  { responseQuery "" with tags := [⟨"responseFile", content⟩] }

/-- A text is decoded to the value that it writes, else to itself; it fails exactly where it comes to an
integer of too many digits or to a bracket without room, and so only with a run of as many digits or with
as many brackets. Beside that no response of a tag fails, and of a file only a name that is too long and
bytes that are no text. -/
theorem answers_unless_tooLong (room : Nat) (q : Query) (files : FileTree) (dir : Path) :
    (∀ o, fromTag room q = o ↔ TagAnswer room q o) ∧
      (∀ o, fromFile room files dir q = o ↔ FileAnswer room files dir q o) ∧
      (∀ e, (fromTag room q).result = .error e ↔
        ∃ content, Comment.firstTag? "response" q.tags = some content ∧
          BreaksOff room (payloadText content) e) ∧
      (∀ e, (fromFile room files dir q).result = .error e ↔
        ∃ content, Comment.firstTag? "responseFile" q.tags = some content ∧
          FileFails room files (filePath dir content) q.route.uri e) ∧
      (∀ s, Json.Breaks room .tooManyDigits s →
        ∃ ds, ds <:+: s ∧ Json.Digits ds ∧ Numeral.digitLimit < ds.length) ∧
      ∀ s, Json.Breaks room .tooDeep s → Json.Crowded room s := by
  refine ⟨fun o => fromTag_eq_iff, fun o => fromFile_eq_iff, fun e => fromTag_fails_iff,
    fun e => fromFile_fails_iff, ?_, ?_⟩
  · rintro s ⟨t, hskip, hstops⟩
    obtain ⟨ds, hds, hdigits, hlen⟩ := hstops.exists_digits
    exact ⟨ds, hds.trans hskip.suffix.isInfix, hdigits, hlen⟩
  · rintro s ⟨t, hskip, hstops⟩
    exact hstops.crowded.of_suffix hskip.suffix

/-- Text that is broken off in a file is given as it stands; a run of digits and brackets without room are
what fails. -/
theorem answers_unless_tooLong_brokenOff :
    fromFile 2 ⟨["srv"], [(["srv", "a.json"], .file [91, 49, 44, 13, 10])]⟩ ⟨"/", ["srv"]⟩
        (fileQuery "200 a.json") = { result := .ok (.text "[1,\n") } ∧
      (∃ ds, ds <:+: overlongInteger ∧ Json.Digits ds ∧ Numeral.digitLimit < ds.length) ∧
      Json.Crowded 2 (brackets 2) := by
  obtain ⟨-, hfile, -, -, hrun, hcrowded⟩ := answers_unless_tooLong 2 (fileQuery "200 a.json")
    ⟨["srv"], [(["srv", "a.json"], .file [91, 49, 44, 13, 10])]⟩ ⟨"/", ["srv"]⟩
  have hbytes : ofFile? [91, 49, 44, 13, 10] = some "[1,\n" := by decide +kernel
  exact ⟨(hfile _).mpr (.text rfl (by decide +kernel) hbytes (decode_eq_iff.mp rfl)),
    hrun _ (breaks_overlongInteger 2), hcrowded _ (breaks_brackets 2)⟩

/-- An integer of too many digits is no value in JSON, and its text is not given either; nor is that of
brackets without room. -/
theorem fromTag_overlongInteger :
    (∀ room, (∀ v, ¬Json.Document room v overlongInteger) ∧
      fromTag room (responseQuery (String.ofList overlongInteger)) =
        { result := .error .tooManyDigits }) ∧
      ∀ room, fromTag room (responseQuery (String.ofList (brackets room))) =
        { result := .error .tooDeep } := by
  refine ⟨fun room => ⟨fun v hv => ?_, ?_⟩, fun room => ?_⟩
  · have hfails := Json.read_eq_error_of_breaks (breaks_overlongInteger room)
    rw [Json.read_eq_ok_iff.mpr hv] at hfails
    cases hfails
  · refine fromTag_replicate (by decide) (.tooLong ?_)
    rw [String.toList_ofList]
    exact breaks_overlongInteger room
  · refine fromTag_replicate (by decide) (.tooDeep ?_)
    rw [String.toList_ofList]
    exact breaks_brackets room

end RouteDoc.Response
