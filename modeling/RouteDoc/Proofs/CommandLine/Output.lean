import RouteDoc.CommandLine
import RouteDoc.Proofs.Descriptor
import RouteDoc.Proofs.FileTree
import RouteDoc.Proofs.Yaml.Layout
/-! What a file lists that descriptors are saved in. In JSON it is read back as a list of their fields; in
YAML a dash stands before the lines of each, a field a line. -/
namespace RouteDoc

/-- Entries that are read back have the keys that were written, if no key comes twice. -/
theorem Data.value_mapping {es : List (String × Data)} (h : (es.map (·.1)).Nodup) :
    (Data.mapping es).value = .mapping (es.map fun e => (.text e.1, e.2.value)) := by
  have hpairs (es : List (String × Data)) :
      pairs es = (es.map fun e => (e.1, e.2.value)).map (Prod.map Value.text id) := by
    induction es with
    | nil => rfl
    | cons e es ih => simp [pairs, ih]
  have hkeys : (Assoc.keys (es.map fun e => (e.1, e.2.value))).Nodup := by
    simpa [Assoc.keys, Function.comp_def] using h
  rw [value, Value.ofPairs, hpairs, Assoc.ofList_map (f := Value.text) (fun _ _ => rfl), Assoc.ofList_of_nodup hkeys]
  simp

namespace Yaml

def Bare (k : String) : Prop := isSimpleKey k = true ∧ ScalarLayout.write true 4 2 k = k.toList

instance (k : String) : Decidable (Bare k) := inferInstanceAs (Decidable (_ ∧ _))

/-- The fields of a block, with keys that are written as they stand. -/
inductive Fields : List (String × Data) → List Char → Prop
  | last {k : String} {d : Data} {t : List Char} : Laid 2 (.key k.toList) d t →
      Fields [(k, d)] (k.toList ++ ':' :: t)
  | field {k : String} {d : Data} {es : List (String × Data)} {t r : List Char} :
      Laid 2 (.key k.toList) d t → Fields es r →
      Fields ((k, d) :: es) (k.toList ++ ':' :: (t ++ ("\n  ".toList ++ r)))

end Yaml

namespace Descriptor

def fieldNames : List String :=
  ["id", "group", "title", "description", "methods", "uri", "path_parameters", "query_parameters",
    "body_parameters", "authenticated", "response", "showresponse", "headers"]

theorem Shown.names {d : Descriptor} {es : List (String × Data)} (h : d.Shown es) :
    es.map (·.1) = fieldNames := by
  cases h
  rfl

theorem Shown.ne_nil {d : Descriptor} {es : List (String × Data)} (h : d.Shown es) : es ≠ [] := by
  cases h
  simp

theorem Shown.bare {d : Descriptor} {es : List (String × Data)} (h : d.Shown es) :
    ∀ e ∈ es, Yaml.Bare e.1 := by
  have hnames : ∀ k ∈ fieldNames, Yaml.Bare k := by decide +kernel
  rw [← h.names] at hnames
  exact fun e he => hnames e.1 (List.mem_map_of_mem he)

theorem Shown.value {d : Descriptor} {es : List (String × Data)} (h : d.Shown es) :
    (Data.mapping es).value = .mapping (es.map fun e => (.text e.1, e.2.value)) :=
  Data.value_mapping (h.names ▸ by decide)

end Descriptor

namespace CommandLine

/-- A file that lists blocks of fields. Nested in JSON they are read back by a reader with some more
room than they were written with. -/
inductive Format.Lists (room : Nat) : Format → List (List (String × Data)) → String → Prop
  | json {blocks : List (List (String × Data))} {text : String}
      (h : ∀ more, Json.read (room + 4 + more) text.toList =
        .ok (.list (blocks.map fun b => .mapping (b.map fun e => (.text e.1, e.2.value))))) :
      Lists room .json blocks text
  | yamlEmpty : Lists room .yaml [] "[]\n"
  | yaml {blocks : List (List (String × Data))} {ts : List (List Char)} {text : String}
      (hne : blocks ≠ []) (hfields : List.Forall₂ Yaml.Fields blocks ts)
      (h : text.toList = ts.flatMap fun t => "- ".toList ++ t ++ ['\n']) : Lists room .yaml blocks text

theorem exists_blocks {room : Nat} {ds : List Descriptor} {xs : List Data}
    (h : List.Forall₂ (fun d x => Descriptor.toData room d = some x) ds xs)
    (hds : ∀ d ∈ ds, d.Readable) :
    ∃ blocks, xs = blocks.map .mapping ∧ List.Forall₂ Descriptor.Shown ds blocks ∧
      ∀ x ∈ xs, x.Readable (room + 3) := by
  induction h with
  | nil => exact ⟨[], rfl, .nil, by simp⟩
  | cons hd _ ih =>
    obtain ⟨hreadable, hds⟩ := List.forall_mem_cons.mp hds
    obtain ⟨es, rfl, hshown, hread⟩ := Descriptor.shown_of_toData hd
    obtain ⟨blocks, rfl, hblocks, hxs⟩ := ih hds
    exact ⟨es :: blocks, rfl, .cons hshown hblocks, List.forall_mem_cons.mpr ⟨hread hreadable, hxs⟩⟩

end CommandLine
end RouteDoc
