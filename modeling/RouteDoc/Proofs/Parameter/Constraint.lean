import RouteDoc.Proofs.Parameter.Tokens
import RouteDoc.Synthesizer
/-! The parameter of a rule. The token `required` is the flag and is shown nowhere else; all other tokens are
shown and are read back from the type. The sample is that of the type that takes precedence, so the order
of the tokens, their number and the flag make no difference to it. -/
namespace RouteDoc.Rule
open Text

def constraints (ts : List String) : List String := ts.filter (· != "required")

def parameter (room : Nat) (s : Synthesizer) (name : String) (rule : Value) :
    Except Raised (Parameter Value) :=
  (draft room name rule).map fun d => (s.fill d).1

def betweenBars (s : String) : List String := (s.toList.splitOn '|').map String.ofList

theorem mem_constraints {ts : List String} {t : String} :
    t ∈ constraints ts ↔ t ∈ ts ∧ t ≠ "required" := by
  simp [constraints]

theorem normal_constraints {ts : List String} (h : Normal ts) : Normal (constraints ts) where
  ne_empty t ht := h.ne_empty t (mem_constraints.mp ht).1
  trimmed t ht := h.trimmed t (mem_constraints.mp ht).1
  bar_not_mem t ht := h.bar_not_mem t (mem_constraints.mp ht).1
  nodup := h.nodup.filter _

/-- The type that comes first among those named by a text of the list, and strings if none is named. -/
inductive Preferred (ts : List String) : ParamType → Prop where
  | named {t : ParamType} (ht : t.name ∈ ts)
      (hfirst : ∀ u : ParamType, u.name ∈ ts → ParamType.all.idxOf t ≤ ParamType.all.idxOf u) :
      Preferred ts t
  | unnamed (h : ∀ u : ParamType, u.name ∉ ts) : Preferred ts .string

theorem mem_all (t : ParamType) : t ∈ ParamType.all := by
  cases t <;> decide

theorem preferred_typeOf (ts : List String) : Preferred ts (typeOf ts) := by
  rw [typeOf]
  cases hfind : ParamType.all.find? fun t => ts.contains t.name with
  | none =>
    refine .unnamed fun u hu => ?_
    have hno := List.find?_eq_none.mp hfind u (mem_all u)
    exact hno (List.contains_iff_mem.mpr hu)
  | some t =>
    obtain ⟨ht, before, behind, hall, hbefore⟩ := List.find?_eq_some_iff_append.mp hfind
    have hnot {u : ParamType} (hu : u.name ∈ ts) : u ∉ before := fun hmem => by
      simpa [hu] using hbefore u hmem
    have htmem : t.name ∈ ts := List.contains_iff_mem.mp ht
    refine .named htmem fun u hu => ?_
    rw [Option.getD_some, hall, List.idxOf_append_of_notMem (hnot htmem),
      List.idxOf_append_of_notMem (hnot hu), List.idxOf_cons_self]
    omega

theorem Preferred.unique {ts : List String} {t u : ParamType} (ht : Preferred ts t)
    (hu : Preferred ts u) : t = u := by
  cases ht with
  | named ht hfirst =>
    cases hu with
    | named hu hfirst' =>
      have hidx := Nat.le_antisymm (hfirst u hu) (hfirst' t ht)
      exact (List.idxOf_inj (mem_all t)).mp hidx
    | unnamed hnone => exact absurd ht (hnone t)
  | unnamed hnone =>
    cases hu with
    | named hu => exact absurd hu (hnone u)
    | unnamed => rfl

theorem preferred_iff {ts : List String} {t : ParamType} : Preferred ts t ↔ t = typeOf ts :=
  ⟨fun h => h.unique (preferred_typeOf ts), fun h => h ▸ preferred_typeOf ts⟩

/-- Only the names among the texts decide about the type. -/
theorem typeOf_congr {ts us : List String} (h : ∀ t : ParamType, t.name ∈ ts ↔ t.name ∈ us) :
    typeOf ts = typeOf us := by
  have hsame : (fun t : ParamType => ts.contains t.name) = fun t => us.contains t.name := by
    funext t
    rw [Bool.eq_iff_iff, List.contains_iff_mem, List.contains_iff_mem, h]
  rw [typeOf, hsame, ← typeOf]

theorem name_ne_required (t : ParamType) : t.name ≠ "required" := by
  cases t <;> decide

/-- The flag is no type. -/
theorem typeOf_constraints (ts : List String) : typeOf (constraints ts) = typeOf ts :=
  typeOf_congr fun t => mem_constraints.trans (and_iff_left (name_ne_required t))

def parameterOf (s : Synthesizer) (name : String) (ts : List String) : Parameter Value :=
  { name
    type := "|".intercalate (constraints ts)
    required := ts.contains "required"
    sample := (s.synthesize (typeOf ts).name).1 }

theorem parameter_eq (room : Nat) (s : Synthesizer) (name : String) (rule : Value) :
    parameter room s name rule = (text room rule).map fun t => parameterOf s name (tokensOfText t) := by
  rw [parameter, draft, tokens]
  cases text room rule with
  | error e => rfl
  | ok t =>
    simp only [Except.map, parameterOf, ← typeOf_constraints (tokensOfText t)]
    rfl

theorem betweenBars_intercalate {ts : List String} (hbar : ∀ t ∈ ts, '|' ∉ t.toList) (hne : ts ≠ []) :
    betweenBars ("|".intercalate ts) = ts := by
  have hbar' : ∀ l ∈ ts.map String.toList, '|' ∉ l := by simpa using hbar
  have hsplit := List.splitOn_intercalate '|' hbar' (by simpa using hne)
  rw [betweenBars, String.toList_intercalate]
  refine (congrArg (List.map String.ofList) hsplit).trans ?_
  rw [List.map_map]
  exact List.map_id'' (fun t => String.ofList_toList) ts

theorem Normal.betweenBars_type {ts : List String} (h : Normal ts) :
    betweenBars ("|".intercalate (constraints ts)) =
      if constraints ts = [] then [""] else constraints ts := by
  split
  case isTrue hnil =>
    rw [hnil]
    rfl
  case isFalse hne => exact betweenBars_intercalate (normal_constraints h).bar_not_mem hne

/-- The constraints among tokens are a rule of their own, without the flag. -/
theorem Normal.parameterOf_type {ts : List String} (h : Normal ts) (s : Synthesizer) (name : String) :
    parameterOf s name (tokensOfText (parameterOf s name ts).type) =
      { parameterOf s name ts with required := false } := by
  have htokens : tokensOfText ("|".intercalate (constraints ts)) = constraints ts :=
    (normal_constraints h).tokensOfText_join
  have hflag : (constraints ts).contains "required" = false := by
    simp [List.contains_eq_mem, mem_constraints]
  have hagain : constraints (constraints ts) = constraints ts := by
    simp [constraints, List.filter_filter]
  simp only [parameterOf, htokens, hflag, hagain, typeOf_constraints]

/-- The flag of a rule is set apart from its constraints. The type shows the other tokens in their order
and nothing else, the sample is that of the type with precedence among the tokens, whatever their order
and number and the flag, and the type read as a rule gives the parameter back without its flag. -/
theorem parameter_setsApart (room : Nat) (s : Synthesizer) (name : String) (rule : Value) :
    match text room rule with
    | .error e => tokens room rule = .error e ∧ parameter room s name rule = .error e
    | .ok u => ∃ ts p, tokens room rule = .ok ts ∧ parameter room s name rule = .ok p ∧
      p.name = name ∧ p.description = "" ∧
      (p.required = true ↔ "required" ∈ ts) ∧
      betweenBars p.type = (if constraints ts = [] then [""] else constraints ts) ∧
      "required" ∉ betweenBars p.type ∧
      (∃ t, (∀ u, Preferred ts u ↔ u = t) ∧ p.sample = (s.synthesize t.name).1) ∧
      (∀ other u', text room other = .ok u' → (∀ t : String, t ≠ "" → t ≠ "required" →
          (t.toList ∈ pieces u.toList ↔ t.toList ∈ pieces u'.toList)) →
        ∃ q, parameter room s name other = .ok q ∧ q.sample = p.sample) ∧
      parameter room s name (.text p.type) = .ok { p with required := false } := by
  have hparameter := parameter_eq room s name rule
  cases htext : text room rule with
  | error e =>
    rw [htext] at hparameter
    exact ⟨by rw [tokens, htext]; rfl, hparameter⟩
  | ok u =>
    rw [htext] at hparameter
    have hnormal := normal_tokensOfText u
    have htype : betweenBars (parameterOf s name (tokensOfText u)).type =
        if constraints (tokensOfText u) = [] then [""] else constraints (tokensOfText u) :=
      hnormal.betweenBars_type
    have htokens : tokens room rule = .ok (tokensOfText u) := by rw [tokens, htext]; rfl
    refine ⟨tokensOfText u, parameterOf s name (tokensOfText u), htokens, hparameter, rfl, rfl,
      List.contains_iff_mem, htype, ?_, ⟨typeOf (tokensOfText u), fun u => preferred_iff, rfl⟩,
      fun other u' hother h => ?_, ?_⟩
    · rw [htype]
      split
      case isTrue => simp
      case isFalse => simp [mem_constraints]
    · refine ⟨parameterOf s name (tokensOfText u'), by rw [parameter_eq, hother]; rfl, ?_⟩
      have hsame : typeOf (tokensOfText u') = typeOf (tokensOfText u) := typeOf_congr fun t => by
        rw [mem_tokensOfText, mem_tokensOfText]
        exact and_congr_right fun hne => (h t.name hne (name_ne_required t)).symm
      simp only [parameterOf, hsame]
    · rw [parameter_eq, text, Value.shown]
      · exact congrArg Except.ok (hnormal.parameterOf_type s name)
      all_goals simp

def mixedRule : Value := .list [.text "string|min:1", .text " required ", .text "integer", .text "min:1"]

theorem parameter_setsApart_mixedRule :
    ∃ p q, parameter 0 { counter := -3 } "n" mixedRule = .ok p ∧ p.required = true ∧
      betweenBars p.type = ["string", "min:1", "integer"] ∧
      parameter 0 { counter := -3 } "n" (.text "integer|min:1|string|integer") = .ok q ∧
      q.sample = p.sample := by
  have htext : text 0 mixedRule = .ok "string|min:1| required |integer|min:1" := by decide +kernel
  have hread : tokens 0 mixedRule = .ok ["string", "min:1", "required", "integer"] := by decide +kernel
  have hrule := parameter_setsApart 0 { counter := -3 } "n" mixedRule
  rw [htext] at hrule
  obtain ⟨ts, p, htokens, hp, -, -, hflag, htype, -, -, hsame, -⟩ := hrule
  obtain rfl := Except.ok.inj (htokens.symm.trans hread)
  obtain ⟨q, hq, hsample⟩ := hsame (.text "integer|min:1|string|integer") _ rfl fun t hne hflag => by
    have hpieces : pieces "string|min:1| required |integer|min:1".toList =
        ["string", "min:1", "required", "integer", "min:1"].map String.toList := by decide +kernel
    have hother : pieces "integer|min:1|string|integer".toList =
        ["integer", "min:1", "string", "integer"].map String.toList := by decide +kernel
    simp only [hpieces, hother, List.mem_map_of_injective fun _ _ h => String.toList_injective h,
      List.mem_cons, List.not_mem_nil]
    tauto
  exact ⟨p, q, hp, hflag.mpr (by simp), htype.trans (by simp [constraints]), hq, hsample⟩

end RouteDoc.Rule
