import RouteDoc.Proofs.Introspection.Failure
import RouteDoc.Proofs.Introspection.Hints
import RouteDoc.Proofs.Introspection.Redefinition
/-! What an inspection finds: the types that a handler's parameters are annotated with, and the rules of the
first form request among them. Parameters behind that one and the form requests that they name do not count,
however they are changed. -/
namespace RouteDoc.Introspection

variable {kept : String → Prop}

/-- The first annotation that stands for a form request in a module, and the annotations in front of it. -/
structure FirstRequest (scope : Module) (front : List String) (text : String) : Prop where
  front : ∀ n ∈ front, ∀ t, Scope.typeOf ⟨scope, none⟩ n = .ok t → isFormRequest t = false
  request : ∃ c, Scope.typeOf ⟨scope, none⟩ text = .ok (.item (.class c)) ∧
    isFormRequest (.item (.class c)) = true

variable {m m' : Module} {front behind : List String} {text : String}

theorem FirstRequest.split (h : FirstRequest m front text) {c : Class}
    (hc : Scope.typeOf ⟨m, none⟩ text = .ok (.item (.class c))) {types : List HandlerType}
    (htypes : StandFor ⟨m, none⟩ (front ++ text :: behind) types) :
    ∃ before after, types = before ++ .item (.class c) :: after ∧
      ∀ t ∈ before, isFormRequest t = false := by
  have hfront := h.front
  clear h
  induction front generalizing types with
  | nil =>
    cases htypes with
    | @cons _ t _ after ht _ =>
      obtain rfl := Except.ok.inj (ht.symm.trans hc)
      exact ⟨[], after, rfl, by simp⟩
  | cons n front ih =>
    cases htypes with
    | @cons _ t _ rest ht hrest =>
      obtain ⟨hn, hfront⟩ := List.forall_mem_cons.mp hfront
      obtain ⟨before, after, rfl, hbefore⟩ := ih hrest hfront
      exact ⟨t :: before, after, rfl, List.forall_mem_cons.mpr ⟨hn t ht, hbefore⟩⟩

end RouteDoc.Introspection
