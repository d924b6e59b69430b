import RouteDoc.Descriptor.Data
import RouteDoc.Proofs.Assoc
import RouteDoc.Proofs.Extraction
import RouteDoc.Proofs.Json.Writing
/-! What a file shows of a descriptor: its fields by their names, with the tables of its parameters, and
values as data. What is shown of values that can be read is data that can be read. -/
namespace RouteDoc

mutual
/-- What is kept of a value in a file. Numbers that are not finite are shown as null, and every sequence
as a list. -/
inductive Kept : Value → Data → Prop
  | null : Kept .null .null
  | bool (b : Bool) : Kept (.bool b) (.bool b)
  | int (n : Int) : Kept (.int n) (.int n)
  | float (s : Bool) (m : Nat) (e : Int) : Kept (.float (.finite s m e)) (.float (.finite s m e))
  | nan : Kept (.float .nan) .null
  | infinite (s : Bool) : Kept (.float (.infinite s)) .null
  | text (s : String) : Kept (.text s) (.text s)
  | list {vs : List Value} {ds : List Data} : KeptAll vs ds → Kept (.list vs) (.list ds)
  | tuple {vs : List Value} {ds : List Data} : KeptAll vs ds → Kept (.tuple vs) (.list ds)
  | set {vs : List Value} {ds : List Data} : KeptAll vs ds → Kept (.set vs) (.list ds)
  | mapping {es : List (Value × Value)} {fs : List (String × Data)} : KeptEntries es fs →
      Kept (.mapping es) (.mapping fs)

inductive KeptAll : List Value → List Data → Prop
  | nil : KeptAll [] []
  | cons {v : Value} {d : Data} {vs : List Value} {ds : List Data} : Kept v d → KeptAll vs ds →
      KeptAll (v :: vs) (d :: ds)

inductive KeptEntries : List (Value × Value) → List (String × Data) → Prop
  | nil : KeptEntries [] []
  | cons {k : String} {v : Value} {d : Data} {es : List (Value × Value)} {fs : List (String × Data)} :
      Kept v d → KeptEntries es fs → KeptEntries ((.text k, v) :: es) ((k, d) :: fs)
end

inductive Parameter.Shown (p : Parameter Value) : Data → Prop
  | intro {sample : Data} : Kept p.sample sample → Shown p (.mapping [
      ("name", .text p.name),
      ("type", .text p.type),
      ("description", .text p.description),
      ("required", .bool p.required),
      ("example_value", sample)])

inductive TableShown (ps : List (String × Parameter Value)) : Data → Prop
  | intro {es : List (String × Data)} : List.Forall₂ (Assoc.EntryRel Parameter.Shown) ps es →
      TableShown ps (.mapping es)

inductive Descriptor.Shown (d : Descriptor) : List (String × Data) → Prop
  | intro {path query body response : Data} : TableShown d.pathParameters path →
      TableShown d.queryParameters query → TableShown d.bodyParameters body →
      Kept d.response response → Shown d [
        ("id", .text d.id),
        ("group", .text d.group),
        ("title", .text d.title),
        ("description", .text d.description),
        ("methods", .list (d.methods.map .text)),
        ("uri", .text d.uri),
        ("path_parameters", path),
        ("query_parameters", query),
        ("body_parameters", body),
        ("authenticated", .bool d.authenticated),
        ("response", response),
        ("showresponse", .bool d.showResponse),
        ("headers", .mapping (d.headers.map fun h => (h.1, .text h.2)))]

/-- Values with numbers that can be read once they are written. -/
inductive Value.Readable : Value → Prop
  | null : Readable .null
  | bool (b : Bool) : Readable (.bool b)
  | int {n : Int} (h : n.natAbs < 10 ^ Numeral.digitLimit) : Readable (.int n)
  | float {x : Binary64} (h : x.Rounded) : Readable (.float x)
  | text (s : String) : Readable (.text s)
  | list {vs : List Value} (h : ∀ v ∈ vs, Readable v) : Readable (.list vs)
  | mapping {es : List (Value × Value)} (h : ∀ e ∈ es, Readable e.2) : Readable (.mapping es)

structure Descriptor.Readable (d : Descriptor) : Prop where
  table : ∀ kind, ∀ e ∈ d.table kind, e.2.sample.Readable
  response : d.response.Readable

theorem exists_of_forall₂ {α β : Type} {R : α → β → Prop} {as : List α} {bs : List β}
    (h : List.Forall₂ R as bs) {b : β} (hb : b ∈ bs) : ∃ a ∈ as, R a b := by
  induction h with
  | nil => cases hb
  | @cons a c as bs hac _ ih =>
    cases hb with
    | head => exact ⟨a, by simp, hac⟩
    | tail _ hb =>
      obtain ⟨a', ha', hR⟩ := ih hb
      exact ⟨a', List.mem_cons_of_mem a ha', hR⟩

theorem forall₂_of_mapM {α β : Type} {f : α → Option β} {as : List α} {bs : List β}
    (h : as.mapM f = some bs) : List.Forall₂ (fun a b => f a = some b) as bs := by
  induction as generalizing bs with
  | nil =>
    cases Option.some.inj h
    exact .nil
  | cons a as ih =>
    simp only [List.mapM_cons, Option.bind_eq_bind, Option.bind_eq_some_iff, Option.pure_def,
      Option.some.injEq] at h
    obtain ⟨b, hb, bs, hbs, rfl⟩ := h
    exact .cons hb (ih hbs)

namespace Data

theorem ofValues_eq_some {room : Nat} {vs : List Value} {ds : List Data}
    (h : ofValues room vs = some ds) : List.Forall₂ (fun v d => ofValue room v = some d) vs ds := by
  induction vs generalizing ds with
  | nil =>
    cases h
    exact .nil
  | cons v vs ih =>
    simp only [ofValues, Option.bind_eq_bind, Option.bind_eq_some_iff, Option.pure_def,
      Option.some.injEq] at h
    obtain ⟨d, hd, ds, hds, rfl⟩ := h
    exact .cons hd (ih hds)

theorem ofEntries_eq_some {room : Nat} {es : List (Value × Value)} {fs : List (String × Data)}
    (h : ofEntries room es = some fs) :
    List.Forall₂ (fun e f => e.1 = .text f.1 ∧ ofValue room e.2 = some f.2) es fs := by
  induction es generalizing fs with
  | nil =>
    cases h
    exact .nil
  | cons e es ih =>
    obtain ⟨k, v⟩ := e
    cases k with
    | text k =>
      simp only [ofEntries, Option.bind_eq_bind, Option.bind_eq_some_iff, Option.pure_def,
        Option.some.injEq] at h
      obtain ⟨d, hd, fs, hfs, rfl⟩ := h
      exact .cons ⟨rfl, hd⟩ (ih hfs)
    | _ => cases h

/-- By induction on the room: the parts of a collection have one less. -/
theorem kept_of_ofValue {room : Nat} {v : Value} {d : Data} (h : ofValue room v = some d) :
    Kept v d := by
  induction room generalizing v d with
  | zero => simp [ofValue] at h
  | succ room ih =>
    have hall {vs : List Value} {ds : List Data}
        (hds : List.Forall₂ (fun v d => ofValue room v = some d) vs ds) : KeptAll vs ds := by
      induction hds with
      | nil => exact .nil
      | cons hd _ ihs => exact .cons (ih hd) ihs
    have hentries {es : List (Value × Value)} {fs : List (String × Data)}
        (hfs : List.Forall₂ (fun e f => e.1 = .text f.1 ∧ ofValue room e.2 = some f.2) es fs) :
        KeptEntries es fs := by
      induction hfs with
      | nil => exact .nil
      | @cons e f _ _ hf _ ihs =>
        obtain ⟨k, v⟩ := e
        obtain ⟨rfl, hf⟩ := hf
        exact .cons (ih hf) ihs
    cases v with
    | null | bool | int | text =>
      cases Option.some.inj h
      constructor
    | float x =>
      cases Option.some.inj h
      cases x <;> constructor
    | list vs | tuple vs | set vs =>
      rw [ofValue, Option.map_eq_some_iff] at h
      obtain ⟨ds, hds, rfl⟩ := h
      constructor
      exact hall (ofValues_eq_some hds)
    | mapping es =>
      rw [ofValue, Option.map_eq_some_iff] at h
      obtain ⟨fs, hfs, rfl⟩ := h
      exact .mapping (hentries (ofEntries_eq_some hfs))
    | bytes | moment | object => simp [ofValue] at h

theorem exists_room_of_ofValue {room : Nat} {v : Value} {d : Data} (h : ofValue room v = some d) :
    ∃ inner, room = inner + 1 := by
  cases room with
  | zero => simp [ofValue] at h
  | succ inner => exact ⟨inner, rfl⟩

theorem readable_of_ofValue {room : Nat} {v : Value} {d : Data} (h : ofValue room v = some d)
    (hv : v.Readable) : d.Readable room := by
  induction hv generalizing room d with
  | null | bool | text =>
    obtain ⟨room, rfl⟩ := exists_room_of_ofValue h
    cases Option.some.inj h
    constructor
  | int hn =>
    obtain ⟨room, rfl⟩ := exists_room_of_ofValue h
    cases Option.some.inj h
    exact .int hn
  | float hx =>
    obtain ⟨room, rfl⟩ := exists_room_of_ofValue h
    cases Option.some.inj h
    cases hx with
    | nan => exact .null
    | infinite => exact .null
    | finite s hx => exact .float s hx
  | list _ ih =>
    obtain ⟨room, rfl⟩ := exists_room_of_ofValue h
    rw [ofValue, Option.map_eq_some_iff] at h
    obtain ⟨ds, hds, rfl⟩ := h
    refine .list fun d hd => ?_
    obtain ⟨v, hv, hvd⟩ := exists_of_forall₂ (ofValues_eq_some hds) hd
    exact ih v hv hvd
  | mapping _ ih =>
    obtain ⟨room, rfl⟩ := exists_room_of_ofValue h
    rw [ofValue, Option.map_eq_some_iff] at h
    obtain ⟨fs, hfs, rfl⟩ := h
    refine .mapping fun f hf => ?_
    obtain ⟨e, he, hef⟩ := exists_of_forall₂ (ofEntries_eq_some hfs) hf
    exact ih e he hef.2

end Data

section
variable {room : Nat}

theorem Parameter.shown_of_toData {p : Parameter Value} {d : Data} (h : p.toData room = some d) :
    p.Shown d ∧ (p.sample.Readable → d.Readable (room + 1)) := by
  obtain ⟨sample, hsample, rfl⟩ := Option.map_eq_some_iff.mp h
  refine ⟨.intro (Data.kept_of_ofValue hsample), fun hreadable => .mapping ?_⟩
  have hdata := Data.readable_of_ofValue hsample hreadable
  simp [Data.Readable.text, Data.Readable.bool, hdata]

theorem tableShown_of_tableData {ps : List (String × Parameter Value)} {d : Data}
    (h : tableData room ps = some d) :
    TableShown ps d ∧ ((∀ p ∈ ps, p.2.sample.Readable) → d.Readable (room + 2)) := by
  obtain ⟨es, hes, rfl⟩ := Option.map_eq_some_iff.mp h
  have hentries := forall₂_of_mapM hes
  refine ⟨.intro (hentries.imp fun p e he => ?_), fun hreadable => .mapping fun e he => ?_⟩
  · obtain ⟨d, hd, rfl⟩ := Option.map_eq_some_iff.mp he
    exact ⟨rfl, (Parameter.shown_of_toData hd).1⟩
  · obtain ⟨p, hp, hpe⟩ := exists_of_forall₂ hentries he
    obtain ⟨d, hd, rfl⟩ := Option.map_eq_some_iff.mp hpe
    exact (Parameter.shown_of_toData hd).2 (hreadable p hp)

theorem Descriptor.shown_of_toData {d : Descriptor} {x : Data} (h : d.toData room = some x) :
    ∃ es, x = .mapping es ∧ d.Shown es ∧ (d.Readable → x.Readable (room + 3)) := by
  simp only [toData, Option.bind_eq_bind, Option.bind_eq_some_iff, Option.pure_def,
    Option.some.injEq] at h
  obtain ⟨path, hpath, query, hquery, body, hbody, response, hresponse, rfl⟩ := h
  obtain ⟨hpathShown, hpathReadable⟩ := tableShown_of_tableData hpath
  obtain ⟨hqueryShown, hqueryReadable⟩ := tableShown_of_tableData hquery
  obtain ⟨hbodyShown, hbodyReadable⟩ := tableShown_of_tableData hbody
  refine ⟨_, rfl, .intro hpathShown hqueryShown hbodyShown (Data.kept_of_ofValue hresponse),
    fun hreadable => .mapping ?_⟩
  have hpathData := hpathReadable (hreadable.table .path)
  have hqueryData := hqueryReadable (hreadable.table .query)
  have hbodyData := hbodyReadable (hreadable.table .body)
  have hresponseData := (Data.readable_of_ofValue hresponse hreadable.response).mono
    (Nat.le_add_right room 2)
  have hmethods : (Data.texts d.methods).Readable (room + 2) := by
    refine .list fun e he => ?_
    obtain ⟨method, -, rfl⟩ := List.mem_map.mp he
    exact .text method
  have hheaders : (Data.mapping (d.headers.map fun h => (h.1, .text h.2))).Readable (room + 2) := by
    refine .mapping fun e he => ?_
    obtain ⟨header, -, rfl⟩ := List.mem_map.mp he
    exact .text header.2
  simp [Data.Readable.text, Data.Readable.bool, hpathData, hqueryData, hbodyData, hresponseData,
    hmethods, hheaders]

end
end RouteDoc
