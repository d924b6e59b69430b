import RouteDoc.Yaml.Writer
/-! The lines of a file in YAML: what stands behind a dash or a key and a colon, item by item and entry by
entry. -/
namespace RouteDoc.Yaml

mutual
/-- A node behind its lead. -/
inductive Laid : Nat → Lead → Data → List Char → Prop
  | null {n : Nat} {l : Lead} : Laid n l .null " null".toList
  | true {n : Nat} {l : Lead} : Laid n l (.bool true) " true".toList
  | false {n : Nat} {l : Lead} : Laid n l (.bool false) " false".toList
  | int {n : Nat} {l : Lead} (k : Int) : Laid n l (.int k) (' ' :: (toString k).toList)
  | float {n : Nat} {l : Lead} (x : Binary64) : Laid n l (.float x) (' ' :: (numberLayout.text x).toList)
  | text {n : Nat} {l : Lead} (s : String) :
      Laid n l (.text s) (' ' :: ScalarLayout.write false (n + 2) (l.column n) s)
  | noItems {n : Nat} {l : Lead} : Laid n l (.list []) " []".toList
  | itemsInLine {n : Nat} {ds : List Data} {t : List Char} : LaidItems (n + 2) ds t →
      Laid n .indicator (.list ds) (' ' :: t)
  | itemsBelow {n : Nat} {k : List Char} {ds : List Data} {t : List Char} : LaidItems n ds t →
      Laid n (.key k) (.list ds) (newline n ++ t)
  | noEntries {n : Nat} {l : Lead} : Laid n l (.mapping []) " \x7b\x7d".toList
  | entriesInLine {n : Nat} {es : List (String × Data)} {t : List Char} : LaidEntries (n + 2) es t →
      Laid n .indicator (.mapping es) (' ' :: t)
  | entriesBelow {n : Nat} {k : List Char} {es : List (String × Data)} {t : List Char} :
      LaidEntries (n + 2) es t → Laid n (.key k) (.mapping es) (newline (n + 2) ++ t)

inductive LaidItems : Nat → List Data → List Char → Prop
  | last {n : Nat} {d : Data} {t : List Char} : Laid n .indicator d t → LaidItems n [d] ('-' :: t)
  | item {n : Nat} {d : Data} {ds : List Data} {t r : List Char} : Laid n .indicator d t →
      LaidItems n ds r → LaidItems n (d :: ds) ('-' :: (t ++ (newline n ++ r)))

inductive LaidEntries : Nat → List (String × Data) → List Char → Prop
  | last {n : Nat} {e : String × Data} {t : List Char} : LaidEntry n e t → LaidEntries n [e] t
  | entry {n : Nat} {e : String × Data} {es : List (String × Data)} {t r : List Char} :
      LaidEntry n e t → LaidEntries n es r → LaidEntries n (e :: es) (t ++ (newline n ++ r))

/-- Keys that are no short line stand behind a question mark. -/
inductive LaidEntry : Nat → String × Data → List Char → Prop
  | simple {n : Nat} {k : String} {d : Data} {key t : List Char} (hk : isSimpleKey k = true)
      (hkey : ScalarLayout.write true (n + 2) n k = key) : Laid n (.key key) d t →
      LaidEntry n (k, d) (key ++ ':' :: t)
  | complex {n : Nat} {k : String} {d : Data} {key t : List Char} (hk : isSimpleKey k = false)
      (hkey : ScalarLayout.write false (n + 2) (n + 2) k = key) : Laid n .indicator d t →
      LaidEntry n (k, d) ('?' :: ' ' :: (key ++ (newline n ++ ':' :: t)))
end

theorem laidEntry_writeEntry {n : Nat} {k : String} {d : Data}
    (h : ∀ l, Laid n l d (writeAfter n l d)) :
    LaidEntry n (k, d) (writeEntry n k fun l => writeAfter n l d) := by
  rw [writeEntry]
  split
  case isTrue hk => exact .simple hk rfl (h _)
  case isFalse hk =>
    simpa using LaidEntry.complex (Bool.eq_false_iff.mpr hk) rfl (h .indicator)

theorem laidItems {n : Nat} {d : Data} {ds : List Data} (hd : Laid n .indicator d (writeAfter n .indicator d))
    (hds : ∀ e ∈ ds, Laid n .indicator e (writeAfter n .indicator e)) :
    LaidItems n (d :: ds) ('-' :: (writeAfter n .indicator d ++ writeItems n ds)) := by
  induction ds generalizing d with
  | nil => simpa [writeItems] using LaidItems.last hd
  | cons e ds ih =>
    obtain ⟨he, hds⟩ := List.forall_mem_cons.mp hds
    rw [writeItems]
    simpa using LaidItems.item hd (ih he hds)

theorem laidEntries {n : Nat} {e : String × Data} {es : List (String × Data)}
    (he : ∀ l, Laid n l e.2 (writeAfter n l e.2)) (hes : ∀ f ∈ es, ∀ l, Laid n l f.2 (writeAfter n l f.2)) :
    LaidEntries n (e :: es)
      (writeEntry n e.1 (fun l => writeAfter n l e.2) ++ writeEntries n es) := by
  induction es generalizing e with
  | nil => simpa [writeEntries] using LaidEntries.last (laidEntry_writeEntry he)
  | cons f es ih =>
    obtain ⟨hf, hes⟩ := List.forall_mem_cons.mp hes
    rw [writeEntries]
    simpa using LaidEntries.entry (laidEntry_writeEntry he) (ih hf hes)

mutual
theorem laid_writeAfter (n : Nat) (l : Lead) (d : Data) : Laid n l d (writeAfter n l d) := by
  cases d with
  | null => exact .null
  | bool b =>
    cases b with
    | false => exact .false
    | true => exact .true
  | int k => exact .int k
  | float x => exact .float x
  | text s => exact .text s
  | list ds =>
    cases ds with
    | nil => exact .noItems
    | cons d ds =>
      have hitems (n : Nat) := laidItems (laid_writeAfter n .indicator d) (laid_of_mem n .indicator ds)
      cases l with
      | indicator =>
        rw [writeAfter]
        exact .itemsInLine (hitems (n + 2))
      | key k => simpa [writeAfter] using Laid.itemsBelow (hitems n)
  | mapping es =>
    cases es with
    | nil => exact .noEntries
    | cons e es =>
      have hentries := laidEntries (fun l => laid_writeAfter (n + 2) l e.2)
        (fun f hf l => laid_of_entry (n + 2) l es f hf)
      cases l with
      | indicator => simpa [writeAfter] using Laid.entriesInLine hentries
      | key k => simpa [writeAfter] using Laid.entriesBelow hentries

theorem laid_of_mem (n : Nat) (l : Lead) (ds : List Data) :
    ∀ d ∈ ds, Laid n l d (writeAfter n l d) := by
  cases ds with
  | nil => exact nofun
  | cons d ds =>
    exact List.forall_mem_cons.mpr ⟨laid_writeAfter n l d, laid_of_mem n l ds⟩

theorem laid_of_entry (n : Nat) (l : Lead) (es : List (String × Data)) :
    ∀ e ∈ es, Laid n l e.2 (writeAfter n l e.2) := by
  cases es with
  | nil => exact nofun
  | cons e es =>
    exact List.forall_mem_cons.mpr ⟨laid_writeAfter n l e.2, laid_of_entry n l es⟩
end

end RouteDoc.Yaml
