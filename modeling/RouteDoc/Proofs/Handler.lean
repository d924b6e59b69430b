import RouteDoc.Handler
import RouteDoc.Proofs.Text.Blank
/-! References to handlers, read and written. A text is a reference when its first colon stands between a
module and a text with a member. References are written with a full stop, so those whose member holds a
full stop or an at sign are read back as others or not at all. -/
namespace RouteDoc

namespace Text
variable {sep : Char}

theorem splitFirst?_append {a : List Char} (ha : sep ∉ a) (b : List Char) :
    splitFirst? sep (a ++ sep :: b) = some (a, b) := by
  induction a with
  | nil => simp [splitFirst?]
  | cons c a ih =>
    obtain ⟨hc, ha⟩ := not_or.mp (List.mem_cons.not.mp ha)
    rw [List.cons_append, splitFirst?, if_neg (Ne.symm hc), ih ha]
    rfl

theorem splitFirst?_of_not_mem {s : List Char} (h : sep ∉ s) : splitFirst? sep s = none := by
  induction s with
  | nil => rfl
  | cons c s ih =>
    obtain ⟨hc, hs⟩ := not_or.mp (List.mem_cons.not.mp h)
    rw [splitFirst?, if_neg (Ne.symm hc), ih hs]
    rfl

theorem splitLast?_of_not_mem {s : List Char} (h : sep ∉ s) : splitLast? sep s = none := by
  induction s with
  | nil => rfl
  | cons c s ih =>
    obtain ⟨hc, hs⟩ := not_or.mp (List.mem_cons.not.mp h)
    simp [splitLast?, ih hs, Ne.symm hc]

theorem splitLast?_append {b : List Char} (hb : sep ∉ b) (a : List Char) :
    splitLast? sep (a ++ sep :: b) = some (a, b) := by
  induction a with
  | nil => simp [splitLast?, splitLast?_of_not_mem hb]
  | cons c a ih => simp [splitLast?, ih]

/-- The last place of a separator, if there is one. -/
theorem exists_last_of_mem {s : List Char} (h : sep ∈ s) : ∃ a b, s = a ++ sep :: b ∧ sep ∉ b := by
  obtain ⟨b, a, hs, hb⟩ := List.eq_append_cons_of_mem (List.mem_reverse.mpr h)
  refine ⟨a.reverse, b.reverse, ?_, by simpa using hb⟩
  rw [← List.reverse_reverse s, hs]
  simp

/-- Trimming stops at characters that are not blank. -/
theorem trim_framed {c d : Char} (hc : isBlank c = false) (hd : isBlank d = false)
    (a s b : List Char) :
    trim (a ++ c :: (s ++ d :: b)) = trimStart a ++ c :: (s ++ d :: trimEnd b) := by
  obtain ⟨u, hu, ha⟩ := exists_trimStart a
  obtain ⟨v, hv, hb⟩ := exists_trimEnd b
  have htrimmed : Trimmed (trimStart a ++ c :: (s ++ d :: trimEnd b)) := by
    refine ⟨fun e he => ?_, fun e he => ?_⟩
    · cases hstart : trimStart a with
      | nil =>
        simp only [hstart, List.nil_append, List.head?_cons, Option.mem_some_iff] at he
        exact he ▸ hc
      | cons f r =>
        refine head_trimStart (s := a) ?_
        simpa [hstart] using he
    · rw [← List.cons_append, ← List.append_assoc] at he
      refine last_append (t := d :: trimEnd b) (fun f hf => ?_) (by simp) e he
      rw [← List.singleton_append] at hf
      exact last_append (fun g hg => last_trimEnd hg) (fun _ => by simpa using hd) f hf
  have hsplit : a ++ c :: (s ++ d :: b) =
      u ++ (trimStart a ++ c :: (s ++ d :: trimEnd b)) ++ v := by
    conv_lhs => rw [ha, hb]
    simp
  rw [hsplit, trim_append hu hv htrimmed]

end Text

namespace HandlerRef
open Text

/-- Owner and member in the text behind the colon: the first at sign is between them, or the last full
stop where there is no at sign, or there is no owner. -/
inductive Splits : List Char → List Char → List Char → Prop
  | at {owner : List Char} (ho : '@' ∉ owner) (member : List Char) :
      Splits (owner ++ '@' :: member) owner member
  | stop {owner member : List Char} (ho : '@' ∉ owner) (hm : '@' ∉ member) (hstop : '.' ∉ member) :
      Splits (owner ++ '.' :: member) owner member
  | whole {member : List Char} (hat : '@' ∉ member) (hstop : '.' ∉ member) : Splits member [] member

theorem exists_splits (s : List Char) : ∃ owner member, Splits s owner member := by
  by_cases hat : '@' ∈ s
  · obtain ⟨a, b, rfl, ha⟩ := List.eq_append_cons_of_mem hat
    exact ⟨a, b, .at ha b⟩
  · by_cases hstop : '.' ∈ s
    · obtain ⟨a, b, rfl, hb⟩ := exists_last_of_mem hstop
      simp only [List.mem_append, List.mem_cons, not_or] at hat
      exact ⟨a, b, .stop hat.1 hat.2.2 hb⟩
    · exact ⟨[], s, .whole hat hstop⟩

namespace Splits
variable {s owner member : List Char}

theorem splitMember_eq (h : Splits s owner member) : splitMember s = (owner, member) := by
  cases h with
  | «at» ho => rw [splitMember, splitFirst?_append ho]
  | stop ho hm hstop =>
    have hat : '@' ∉ owner ++ '.' :: member := by simp [ho, hm]
    rw [splitMember, splitFirst?_of_not_mem hat, splitLast?_append hstop]
    rfl
  | whole hat hstop =>
    rw [splitMember, splitFirst?_of_not_mem hat, splitLast?_of_not_mem hstop]
    rfl

theorem at_not_mem (h : Splits s owner member) : '@' ∉ owner := by
  cases h with
  | «at» ho => exact ho
  | stop ho => exact ho
  | whole => exact List.not_mem_nil

theorem suffix (h : Splits s owner member) : member <:+ s := by
  cases h with
  | «at» => exact ⟨owner ++ ['@'], by simp⟩
  | stop => exact ⟨owner ++ ['.'], by simp⟩
  | whole => exact List.suffix_rfl

end Splits

def componentOf (module owner : List Char) : List Char :=
  if owner.isEmpty then module else module ++ ':' :: owner

theorem ofChars?_of_no_colon {s : List Char} (h : ':' ∉ trim s) : ofChars? s = none := by
  rw [ofChars?, splitFirst?_of_not_mem h]

theorem ofChars?_of_splits {s module rest owner member : List Char}
    (hs : trim s = module ++ ':' :: rest) (hm : ':' ∉ module) (h : Splits rest owner member) :
    ofChars? s =
      if module = [] ∨ member = [] then none else some (componentOf module owner, member) := by
  have hrest : rest = [] → member = [] := by
    rintro rfl
    exact List.suffix_nil.mp h.suffix
  rw [ofChars?, hs, splitFirst?_append hm]
  simp only [h.splitMember_eq, Bool.or_eq_true, List.isEmpty_iff]
  by_cases hmodule : module = []
  · simp [hmodule]
  · by_cases hempty : rest = []
    · simp [hempty, hrest hempty]
    · simp [hmodule, hempty, componentOf]

/-- Trimmed texts that are no references: without a colon, with nothing in front of the first or behind
it, or without a member. -/
inductive Refused : List Char → Prop
  | noColon {t : List Char} (h : ':' ∉ t) : Refused t
  | noModule (rest : List Char) : Refused (':' :: rest)
  | nothingBehind {module : List Char} (hm : ':' ∉ module) : Refused (module ++ [':'])
  | noMember {module rest owner : List Char} (hm : ':' ∉ module) (h : Splits rest owner []) :
      Refused (module ++ ':' :: rest)

theorem ofChars?_eq_none_iff {s : List Char} : ofChars? s = none ↔ Refused (trim s) := by
  constructor
  · intro hnone
    by_cases hcolon : ':' ∈ trim s
    · obtain ⟨module, rest, hs, hm⟩ := List.eq_append_cons_of_mem hcolon
      obtain ⟨owner, member, h⟩ := exists_splits rest
      rw [ofChars?_of_splits hs hm h] at hnone
      by_cases hmodule : module = []
      · rw [hs, hmodule]
        exact .noModule rest
      · by_cases hmember : member = []
        · rw [hs]
          exact .noMember hm (hmember ▸ h)
        · simp [hmodule, hmember] at hnone
    · exact .noColon hcolon
  · intro h
    generalize hs : trim s = t at h
    cases h with
    | noColon hcolon => exact ofChars?_of_no_colon (hs ▸ hcolon)
    | noModule rest =>
      obtain ⟨owner, member, h⟩ := exists_splits rest
      have hs' : trim s = [] ++ ':' :: rest := hs
      rw [ofChars?_of_splits hs' List.not_mem_nil h, if_pos (.inl rfl)]
    | nothingBehind hm =>
      rw [ofChars?_of_splits hs hm (.whole List.not_mem_nil List.not_mem_nil), if_pos (.inr rfl)]
    | noMember hm h => rw [ofChars?_of_splits hs hm h, if_pos (.inr rfl)]

theorem parse?_eq_none_iff {s : String} : parse? s = none ↔ Refused (trim s.toList) := by
  rw [parse?, Option.map_eq_none_iff, ofChars?_eq_none_iff]

def build (module owner member : List Char) : HandlerRef :=
  ⟨String.ofList (componentOf module owner), String.ofList member⟩

theorem parse?_of_splits {s : String} {module rest owner member : List Char}
    (hs : trim s.toList = module ++ ':' :: rest) (hm : ':' ∉ module)
    (h : Splits rest owner member) :
    parse? s = if module = [] ∨ member = [] then none else some (build module owner member) := by
  rw [parse?, ofChars?_of_splits hs hm h]
  split <;> rfl

theorem exists_of_parse? {s : String} {h : HandlerRef} (hs : parse? s = some h) :
    ∃ module rest owner member, trim s.toList = module ++ ':' :: rest ∧ ':' ∉ module ∧
      Splits rest owner member ∧ module ≠ [] ∧ member ≠ [] ∧ h = build module owner member := by
  have hcolon : ':' ∈ trim s.toList := by
    by_contra hcolon
    have hnone := parse?_eq_none_iff.mpr (.noColon hcolon)
    rw [hs] at hnone
    cases hnone
  obtain ⟨module, rest, htrim, hm⟩ := List.eq_append_cons_of_mem hcolon
  obtain ⟨owner, member, h⟩ := exists_splits rest
  rw [parse?_of_splits htrim hm h] at hs
  split at hs
  case isTrue => cases hs
  case isFalse hne =>
    obtain ⟨hmodule, hmember⟩ := not_or.mp hne
    exact ⟨module, rest, owner, member, htrim, hm, h, hmodule, hmember, (Option.some.inj hs).symm⟩

def renderedRest (owner member : List Char) : List Char :=
  if owner.isEmpty then member else owner ++ '.' :: member

theorem toList_render_build {module : List Char} (hm : ':' ∉ module) (owner member : List Char) :
    (build module owner member).render.toList = module ++ ':' :: renderedRest owner member := by
  cases owner with
  | nil =>
    simp [build, render, owner?, componentOf, renderedRest, splitFirst?_of_not_mem hm]
  | cons c o =>
    simp [build, render, owner?, componentOf, renderedRest, splitFirst?_append hm]

theorem splits_renderedRest {owner member : List Char} (ho : '@' ∉ owner) (hat : '@' ∉ member)
    (hstop : '.' ∉ member) : Splits (renderedRest owner member) owner member := by
  cases owner with
  | nil => exact .whole hat hstop
  | cons c o => exact .stop ho hat hstop

/-- A member that is read back holds no separator. -/
theorem not_mem_of_splits_renderedRest {owner owner' member : List Char}
    (h : Splits (renderedRest owner member) owner' member) : '.' ∉ member ∧ '@' ∉ member := by
  generalize hrest : renderedRest owner member = rest at h
  cases h with
  | «at» =>
    cases owner with
    | nil =>
      have hlength := congrArg List.length hrest
      simp only [renderedRest, List.isEmpty_nil, if_true, List.length_append,
        List.length_cons] at hlength
      omega
    | cons c o =>
      have htail := List.append_inj_right' hrest rfl
      exact absurd (List.cons.inj htail).1 (by decide)
  | stop ho hm hstop => exact ⟨hstop, hm⟩
  | whole hat hstop => exact ⟨hstop, hat⟩

theorem trimmed_render_build {t module rest owner member : List Char}
    (ht : t = module ++ ':' :: rest) (htrimmed : Trimmed t) (hmodule : module ≠ [])
    (hmember : member ≠ []) (h : Splits rest owner member) :
    Trimmed (module ++ ':' :: renderedRest owner member) := by
  obtain ⟨front, hfront⟩ := h.suffix
  obtain ⟨front', hfront'⟩ : ∃ front', renderedRest owner member = front' ++ member := by
    cases owner with
    | nil => exact ⟨[], rfl⟩
    | cons c o => exact ⟨c :: o ++ ['.'], by simp [renderedRest]⟩
  have hhead (r : List Char) : (module ++ r).head? = t.head? := by
    obtain ⟨c, m, rfl⟩ := List.exists_cons_of_ne_nil hmodule
    rw [ht]
    rfl
  have hlast (f : List Char) : (f ++ member).getLast? = member.getLast? :=
    List.getLast?_append_of_ne_nil f hmember
  have ht' : t = (module ++ ':' :: front) ++ member := by
    rw [ht, ← hfront]
    simp
  have hrendered : module ++ ':' :: renderedRest owner member =
      (module ++ ':' :: front') ++ member := by
    rw [hfront']
    simp
  refine ⟨fun c hc => htrimmed.head c ?_, fun c hc => htrimmed.last c ?_⟩
  · rwa [hhead] at hc
  · rw [hrendered, hlast] at hc
    rwa [ht', hlast]

theorem render_of_parse? {s : String} {h : HandlerRef} (hs : parse? s = some h) :
    parse? h.render = some h ↔ '.' ∉ h.member.toList ∧ '@' ∉ h.member.toList := by
  obtain ⟨module, rest, owner, member, htrim, hm, hsplits, hmodule, hmember, rfl⟩ :=
    exists_of_parse? hs
  have hrender : trim (build module owner member).render.toList =
      module ++ ':' :: renderedRest owner member := by
    rw [toList_render_build hm]
    exact (trimmed_render_build htrim (trimmed_trim _) hmodule hmember hsplits).trim_eq
  have hlist : (build module owner member).member.toList = member := String.toList_ofList
  rw [hlist]
  constructor
  · intro hread
    obtain ⟨owner', member', hsplits'⟩ := exists_splits (renderedRest owner member)
    rw [parse?_of_splits hrender hm hsplits'] at hread
    split at hread
    case isTrue => cases hread
    case isFalse =>
      have hmem := String.ofList_injective (congrArg HandlerRef.member (Option.some.inj hread))
      exact not_mem_of_splits_renderedRest (hmem ▸ hsplits')
  · rintro ⟨hstop, hat⟩
    have hsplits' := splits_renderedRest hsplits.at_not_mem hat hstop
    rw [parse?_of_splits hrender hm hsplits', if_neg (not_or.mpr ⟨hmodule, hmember⟩)]

theorem trim_reference {mark : String} {sep : Char} (hmark : mark.toList = [sep])
    (hsep : isBlank sep = false) (module owner member : String) :
    trim (module ++ ":" ++ owner ++ mark ++ member).toList =
      trimStart module.toList ++ ':' :: (owner.toList ++ sep :: trimEnd member.toList) := by
  rw [← trim_framed (by decide) hsep]
  simp [hmark]

/-- Module and owner of a text, cut at the first colon: what stands behind a colon in the module is the
owner's. -/
theorem exists_first_colon {module : String} {owner : List Char}
    (hm : '@' ∉ module.toList.dropWhile (· ≠ ':')) (ho : '@' ∉ owner) :
    ∃ x y, ':' ∉ x ∧ '@' ∉ y ∧ trimStart module.toList ++ ':' :: owner = x ++ ':' :: y := by
  obtain ⟨u, hu, hmodule⟩ := exists_trimStart module.toList
  have hblank : ∀ c ∈ u, decide (c ≠ ':') = true := by
    intro c hc
    have hne : c ≠ ':' := by
      rintro rfl
      exact absurd (hu _ hc) (by decide)
    simpa using hne
  rw [hmodule, List.dropWhile_append_of_pos hblank] at hm
  generalize trimStart module.toList = m at hm
  have hfront : ':' ∉ m.takeWhile (· ≠ ':') := fun h => by
    simpa using List.mem_takeWhile_imp h
  have hcut : m = m.takeWhile (· ≠ ':') ++ m.dropWhile (· ≠ ':') :=
    List.takeWhile_append_dropWhile.symm
  cases hback : m.dropWhile (· ≠ ':') with
  | nil =>
    rw [hback, List.append_nil] at hcut
    exact ⟨m, owner, hcut ▸ hfront, ho, rfl⟩
  | cons c y =>
    have hc : c = ':' := by
      have hhead := List.head?_dropWhile_not (· ≠ ':') m
      rw [hback] at hhead
      simpa using hhead
    rw [hback] at hm
    refine ⟨_, y ++ ':' :: owner, hfront, ?_, ?_⟩
    · have hy : '@' ∉ y := fun h => hm (List.mem_cons_of_mem c h)
      simp [hy, ho]
    · conv_lhs => rw [hcut, hback, hc]
      simp

theorem parse?_at_eq_stop {module owner member : String}
    (hm : '@' ∉ module.toList.dropWhile (· ≠ ':')) (ho : '@' ∉ owner.toList)
    (hat : '@' ∉ member.toList) (hstop : '.' ∉ member.toList) :
    parse? (module ++ ":" ++ owner ++ "@" ++ member) =
      parse? (module ++ ":" ++ owner ++ "." ++ member) := by
  obtain ⟨x, y, hx, hy, hcut⟩ := exists_first_colon hm ho
  have hmember {c : Char} (hc : c ∉ member.toList) : c ∉ trimEnd member.toList := fun h =>
    hc ((prefix_trimEnd _).subset h)
  have htrim (mark : String) {sep : Char} (hmark : mark.toList = [sep]) (hsep : isBlank sep = false) :
      trim (module ++ ":" ++ owner ++ mark ++ member).toList =
        x ++ ':' :: (y ++ sep :: trimEnd member.toList) := by
    have hparts := congrArg (· ++ sep :: trimEnd member.toList) hcut
    rw [trim_reference hmark hsep]
    simpa using hparts
  rw [parse?_of_splits (htrim "@" rfl (by decide)) hx (.at hy _),
    parse?_of_splits (htrim "." rfl (by decide)) hx (.stop hy (hmember hat) (hmember hstop))]

/-- Exactly the refused texts are no references; a reference is read back as it was written exactly when
its member holds neither full stop nor at sign; and a member behind an at sign is the same member behind
a full stop. A module ends at the first colon, so what is behind one belongs to the owner. -/
theorem parse?_laws :
    (∀ s, parse? s = none ↔ Refused (trim s.toList)) ∧
    (∀ s h, parse? s = some h →
      (parse? h.render = some h ↔ '.' ∉ h.member.toList ∧ '@' ∉ h.member.toList)) ∧
    ∀ module owner member : String, '@' ∉ module.toList.dropWhile (· ≠ ':') → '@' ∉ owner.toList →
      '@' ∉ member.toList → '.' ∉ member.toList →
        parse? (module ++ ":" ++ owner ++ "@" ++ member) =
          parse? (module ++ ":" ++ owner ++ "." ++ member) :=
  ⟨fun _ => parse?_eq_none_iff, fun _ _ => render_of_parse?, fun _ _ _ => parse?_at_eq_stop⟩

/-- A nested owner, a member that is not read back, and a text without a member. -/
theorem parse?_laws_nested :
    parse? "app:" = none ∧
      (parse? "app:Outer.Inner.show" = some ⟨"app:Outer.Inner", "show"⟩ ∧
        parse? (HandlerRef.mk "app:Outer.Inner" "show").render = some ⟨"app:Outer.Inner", "show"⟩) ∧
      (parse? "app:C@a.b" = some ⟨"app:C", "a.b"⟩ ∧
        parse? (HandlerRef.mk "app:C" "a.b").render ≠ some ⟨"app:C", "a.b"⟩) ∧
      parse? ("app" ++ ":" ++ "Outer.Inner" ++ "@" ++ "show") =
        parse? ("app" ++ ":" ++ "Outer.Inner" ++ "." ++ "show") := by
  obtain ⟨hnone, hback, hforms⟩ := parse?_laws
  have hnested : parse? "app:Outer.Inner.show" = some ⟨"app:Outer.Inner", "show"⟩ := by
    decide +kernel
  have hdotted : parse? "app:C@a.b" = some ⟨"app:C", "a.b"⟩ := by decide +kernel
  have hrefused : Refused ("app".toList ++ [':']) := .nothingBehind (by decide)
  refine ⟨(hnone "app:").mpr hrefused,
    ⟨hnested, (hback _ _ hnested).mpr (by decide)⟩,
    ⟨hdotted, fun h => (hback _ _ hdotted).mp h |>.1 (by decide)⟩,
    hforms _ _ _ (by decide) (by decide) (by decide) (by decide)⟩

end HandlerRef
end RouteDoc
