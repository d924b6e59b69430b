import Mathlib.Data.List.Forall2
import Mathlib.Data.Option.Basic
import RouteDoc.Introspection
import RouteDoc.Proofs.Outcome
/-! Modules in which some definitions are kept and all others are made anew. Kept functions may change their
comments and their parameters, so long as a call without arguments still ends the same way. What is looked up
and called among kept definitions then goes the same way in both modules: a form request gives the same rules
or fails in both. -/
namespace RouteDoc

mutual
/-- Members that no lookup and no call without arguments tells apart: classes are based on classes of kept
names, and functions have parameters in both or in neither. -/
inductive SameMember (kept : String → Prop) : Member → Member → Prop where
  | function {doc doc' : Option String} {params params' : List (String × Option String)}
      {ending ending' : Ending} (hparams : params = [] ↔ params' = [])
      (h : SameEnding kept ending ending') :
      SameMember kept (.function doc params ending) (.function doc' params' ending')
  | classDef {doc doc' base : Option String} {traits traits' : Traits} {ms ms' : List (String × Member)}
      (hbase : ∀ b, base = some b → kept b)
      (hmapping : Alike (· = ·) traits.mapping traits'.mapping) (h : SameMembers kept ms ms') :
      SameMember kept (.classDef doc base traits ms) (.classDef doc' base traits' ms')
  | data {p p' : Product} (h : SameProduct kept p p') : SameMember kept (.data p) (.data p')
  | builtin : SameMember kept .builtin .builtin

inductive SameMembers (kept : String → Prop) :
    List (String × Member) → List (String × Member) → Prop where
  | nil : SameMembers kept [] []
  | cons {name : String} {m m' : Member} {ms ms' : List (String × Member)}
      (h : SameMember kept m m') (hs : SameMembers kept ms ms') :
      SameMembers kept ((name, m) :: ms) ((name, m') :: ms')

inductive SameProduct (kept : String → Prop) : Product → Product → Prop where
  | value (v : Value) : SameProduct kept (.value v) (.value v)
  | object {name name' : String} {traits traits' : Traits} {ms ms' : List (String × Member)}
      (hmapping : Alike (· = ·) traits.mapping traits'.mapping) (h : SameMembers kept ms ms') :
      SameProduct kept (.object name traits ms) (.object name' traits' ms')

inductive SameEnding (kept : String → Prop) : Ending → Ending → Prop where
  | returns {p p' : Product} (h : SameProduct kept p p') : SameEnding kept (.returns p) (.returns p')
  | raises (e e' : Raised) : SameEnding kept (.raises e) (.raises e')
end

/-- A module and the same module after all but the definitions of kept names were made anew. -/
def Redefined (kept : String → Prop) (m m' : Module) : Prop :=
  List.Forall₂ (fun e e' => e.1 = e'.1 ∧ (kept e.1 → SameMember kept e.2 e'.2)) m.members m'.members

structure SameClass (kept : String → Prop) (c c' : Class) : Prop where
  scope : Redefined kept c.scope c'.scope
  base : c.base = c'.base
  keptBase : ∀ b, c.base = some b → kept b
  mapping : Alike (· = ·) c.traits.mapping c'.traits.mapping
  members : SameMembers kept c.members c'.members

inductive SameItem (kept : String → Prop) : Item → Item → Prop where
  | function {m m' : Module} {path path' : List String} {doc doc' : Option String}
      {params params' : List (String × Option String)} {ending ending' : Ending}
      (hm : Redefined kept m m') (hparams : params = [] ↔ params' = [])
      (h : SameEnding kept ending ending') :
      SameItem kept (.function m path doc params ending) (.function m' path' doc' params' ending')
  | class {c c' : Class} (h : SameClass kept c c') : SameItem kept (.class c) (.class c')
  | object {c c' : Class} (h : SameClass kept c c') : SameItem kept (.object c) (.object c')
  | value (v : Value) : SameItem kept (.value v) (.value v)
  | builtin : SameItem kept .builtin .builtin

theorem rel_cases {α β : Type} {R : α → β → Prop} {x : Option α} {y : Option β} (h : Option.Rel R x y) :
    x = none ∧ y = none ∨ ∃ a b, x = some a ∧ y = some b ∧ R a b := by
  cases h with
  | none => exact .inl ⟨rfl, rfl⟩
  | some h => exact .inr ⟨_, _, rfl, rfl, h⟩

theorem rel_bind {α β γ δ : Type} {R : α → β → Prop} {S : γ → δ → Prop} {x : Option α} {y : Option β}
    {f : α → Option γ} {g : β → Option δ} (h : Option.Rel R x y)
    (hfg : ∀ a b, R a b → Option.Rel S (f a) (g b)) : Option.Rel S (x.bind f) (y.bind g) := by
  cases h with
  | some h => exact hfg _ _ h
  | none => exact .none

variable {kept : String → Prop} {m m' : Module} {c c' : Class} {i i' : Item} {name : String}

theorem SameMembers.get? {ms ms' : List (String × Member)} (h : SameMembers kept ms ms')
    (name : String) :
    Option.Rel (SameMember kept) (Assoc.get? name ms) (Assoc.get? name ms') := by
  induction ms generalizing ms' with
  | nil =>
    cases h with
    | nil => exact .none
  | cons e ms ih =>
    cases h with
    | @cons key x x' _ ms' h hs =>
      rw [Assoc.get?, Assoc.get?]
      cases key == name with
      | true => exact .some h
      | false => exact ih hs

theorem Redefined.get? (hm : Redefined kept m m') (hname : kept name) :
    Option.Rel (SameMember kept) (Assoc.get? name m.members) (Assoc.get? name m'.members) := by
  rw [Redefined] at hm
  generalize m.members = es at hm ⊢
  generalize m'.members = es' at hm ⊢
  induction hm with
  | nil => exact .none
  | @cons e e' es es' he _ ih =>
    obtain ⟨hkey, hsame⟩ := he
    rw [Assoc.get?, Assoc.get?, ← hkey]
    cases hbeq : e.1 == name with
    | true => exact .some (hsame (eq_of_beq hbeq ▸ hname))
    | false => exact ih

theorem sameItem_ofProduct {p p' : Product} (hm : Redefined kept m m') (h : SameProduct kept p p') :
    SameItem kept (.ofProduct m p) (.ofProduct m' p') := by
  cases h with
  | value v => exact .value v
  | object hmapping h => exact .object ⟨hm, rfl, by simp, hmapping, h⟩

theorem sameItem_ofMember {x x' : Member} (hm : Redefined kept m m') (h : SameMember kept x x')
    (path path' : List String) : SameItem kept (.ofMember m path x) (.ofMember m' path' x') := by
  cases h with
  | function hparams h => exact .function hm hparams h
  | classDef hbase hmapping h => exact .class ⟨hm, rfl, hbase, hmapping, h⟩
  | data h => exact sameItem_ofProduct hm h
  | builtin => exact .builtin

theorem Redefined.topClass? (hm : Redefined kept m m') (hname : kept name) :
    Option.Rel (SameClass kept) (Item.topClass? m name) (Item.topClass? m' name) := by
  rw [Item.topClass?, Item.topClass?]
  rcases rel_cases (hm.get? hname) with ⟨hx, hx'⟩ | ⟨x, x', hx, hx', h⟩
  · rw [hx, hx']
    exact .none
  · rw [hx, hx']
    cases h with
    | classDef hbase hmapping h => exact .some ⟨hm, rfl, hbase, hmapping, h⟩
    | _ => exact .none

theorem SameClass.baseClass? (h : SameClass kept c c') :
    Option.Rel (SameClass kept) (Item.baseClass? c) (Item.baseClass? c') := by
  rw [Item.baseClass?, Item.baseClass?, ← h.base]
  cases hbase : c.base with
  | none => exact .none
  | some b => exact h.scope.topClass? (h.keptBase b hbase)

/-- A member is found in the class itself or, by induction on the depth, in the class that it is based on. -/
theorem SameClass.classMember? (h : SameClass kept c c') (name : String) (depth : Nat) :
    Option.Rel (SameItem kept) (Item.classMember? name depth c) (Item.classMember? name depth c') := by
  induction depth generalizing c c' with
  | zero => exact .none
  | succ depth ih =>
    rw [Item.classMember?, Item.classMember?]
    rcases rel_cases (h.members.get? name) with ⟨hx, hx'⟩ | ⟨x, x', hx, hx', hsame⟩
    · rw [hx, hx']
      exact rel_bind h.baseClass? fun _ _ hc => ih hc
    · rw [hx, hx']
      exact .some (sameItem_ofMember h.scope hsame _ _)

theorem SameClass.ofClass? (h : SameClass kept c c') (name : String) :
    Option.Rel (SameItem kept) (Item.ofClass? name c) (Item.ofClass? name c') := by
  rw [Item.ofClass?, Item.ofClass?, Item.heritage, Item.heritage, ← h.scope.length_eq]
  exact h.classMember? name _

namespace SameItem

theorem attribute? (h : SameItem kept i i') (name : String) :
    Option.Rel (SameItem kept) (i.attribute? name) (i'.attribute? name) := by
  cases h with
  | «class» h => exact h.ofClass? name
  | object h => exact h.ofClass? name
  | _ => exact .none

theorem isCallable (h : SameItem kept i i') : i.isCallable = i'.isCallable := by
  cases h with
  | object h =>
    rw [Item.isCallable, Item.isCallable]
    rcases rel_cases (h.ofClass? "__call__") with ⟨hf, hf'⟩ | ⟨f, f', hf, hf', -⟩
    · rw [hf, hf']
    · rw [hf, hf']
      rfl
  | _ => rfl

theorem hasCallable (h : SameItem kept i i') : i.hasCallable name = i'.hasCallable name := by
  rw [Item.hasCallable, Item.hasCallable]
  rcases rel_cases (h.attribute? name) with ⟨ha, ha'⟩ | ⟨a, a', ha, ha', hsame⟩
  · rw [ha, ha']
  · rw [ha, ha']
    exact hsame.isCallable

theorem access (h : SameItem kept i i') : Alike (SameItem kept) (i.access name) (i'.access name) := by
  rw [Item.access, Item.access]
  rcases rel_cases (h.attribute? name) with ⟨ha, ha'⟩ | ⟨a, a', ha, ha', hsame⟩
  · rw [ha, ha']
    exact .error _ _
  · rw [ha, ha']
    exact .ok hsame

theorem callFunction (h : SameItem kept i i') :
    Alike (SameItem kept) i.callFunction i'.callFunction := by
  cases h with
  | @function _ _ _ _ _ _ params params' _ _ hm hparams hending =>
    cases params with
    | nil =>
      obtain rfl := hparams.mp rfl
      cases hending with
      | returns h => exact .ok (sameItem_ofProduct hm h)
      | raises => exact .error _ _
    | cons p params =>
      cases params' with
      | nil => exact absurd (hparams.mpr rfl) (List.cons_ne_nil p params)
      | cons p' params' => exact .error _ _
  | _ => exact .error _ _

/-- Calls end alike at every depth: an initializer or a call method is called one level deeper. -/
theorem callAt (h : SameItem kept i i') (depth : Nat) :
    Alike (SameItem kept) (i.callAt depth) (i'.callAt depth) := by
  induction depth generalizing i i' with
  | zero =>
    cases h with
    | builtin => exact .ok (.value _)
    | function hm hparams h => exact (function hm hparams h).callFunction
    | _ => exact .error _ _
  | succ depth ih =>
    cases h with
    | builtin => exact .ok (.value _)
    | value v => exact .error _ _
    | function hm hparams h => exact (function hm hparams h).callFunction
    | object h =>
      rw [Item.callAt, Item.callAt]
      rcases rel_cases (h.ofClass? "__call__") with ⟨hf, hf'⟩ | ⟨f, f', hf, hf', hsame⟩
      · rw [hf, hf']
        exact .error _ _
      · rw [hf, hf']
        exact ih hsame
    | «class» h =>
      rw [Item.callAt, Item.callAt]
      rcases rel_cases (h.ofClass? "__init__") with ⟨hf, hf'⟩ | ⟨f, f', hf, hf', hsame⟩
      · rw [hf, hf']
        exact .ok (.object h)
      · rw [hf, hf']
        have hcall := ih hsame
        dsimp only
        generalize f.callAt depth = r at hcall ⊢
        generalize f'.callAt depth = r' at hcall ⊢
        cases hcall with
        | error => exact .error _ _
        | ok hr =>
          cases hr with
          | value v =>
            cases v with
            | null => exact .ok (.object h)
            | _ => exact .error _ _
          | _ => exact .error _ _

theorem call (h : SameItem kept i i') : Alike (SameItem kept) i.call i'.call := h.callAt _

end SameItem

namespace Introspection

end Introspection
end RouteDoc
