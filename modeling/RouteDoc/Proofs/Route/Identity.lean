import RouteDoc.Route
/-! The identity of a route. The text behind an id has a colon after the address and nothing between
the methods, so another address, or other methods, may be read in it. It has one reading where no
method is empty, has a colon in it or begins another one, as is the case for those of HTTP. -/
namespace RouteDoc.Route

def joined (ms : List String) : List Char := ms.flatMap String.toList

theorem joined_cons (m : String) (ms : List String) : joined (m :: ms) = m.toList ++ joined ms :=
  List.flatMap_cons

/-- Methods that can be told apart where they are written one after the other, and from an address in
front of them. -/
structure Separable (ms : List String) : Prop where
  ne_empty : ∀ m ∈ ms, m ≠ ""
  no_colon : ∀ m ∈ ms, ':' ∉ m.toList
  no_prefix : ∀ m ∈ ms, ∀ n ∈ ms, m.toList <+: n.toList → m = n

def Confusable (u v a b : List Char) : Prop :=
  (u = v ∧ a = b) ∨ (∃ t, v = u ++ ':' :: t ∧ a = t ++ ':' :: b) ∨
    ∃ t, u = v ++ ':' :: t ∧ b = t ++ ':' :: a

theorem sortTexts_normalizeMethods (ms : List String) :
    sortTexts (normalizeMethods ms) = normalizeMethods ms := by
  apply List.mergeSort_of_pairwise
  apply List.pairwise_mergeSort
  · intro a b c hab hbc
    simp only [decide_eq_true_eq] at hab hbc ⊢
    exact String.le_trans hab hbc
  · intro a b
    simpa using String.le_total a b

theorem toList_identity (uri : String) (ms : List String) :
    (identity uri ms).toList = uri.toList ++ ':' :: joined (sortTexts ms) := by
  simp [identity, joined]

/-- A text is cut at one of its colons. -/
theorem append_colon_eq_iff {u v a b : List Char} :
    u ++ ':' :: a = v ++ ':' :: b ↔ Confusable u v a b := by
  constructor
  · intro h
    cases List.append_eq_append_iff.mp h with
    | inl h =>
      obtain ⟨t, hv, ht⟩ := h
      cases t with
      | nil => exact .inl ⟨by simpa using hv.symm, (List.cons.inj ht).2⟩
      | cons c t =>
        obtain ⟨hc, ha⟩ := List.cons.inj ht
        exact .inr (.inl ⟨t, hc ▸ hv, ha⟩)
    | inr h =>
      obtain ⟨t, hu, ht⟩ := h
      cases t with
      | nil => exact .inl ⟨by simpa using hu, (List.cons.inj ht).2.symm⟩
      | cons c t =>
        obtain ⟨hc, hb⟩ := List.cons.inj ht
        exact .inr (.inr ⟨t, hc ▸ hu, hb⟩)
  · intro h
    obtain ⟨rfl, rfl⟩ | ⟨t, rfl, rfl⟩ | ⟨t, rfl, rfl⟩ := h
    · rfl
    · simp
    · simp

theorem identity_eq_iff {u v : String} {ms ns : List String} :
    identity u ms = identity v ns ↔
      Confusable u.toList v.toList (joined (sortTexts ms)) (joined (sortTexts ns)) := by
  rw [← String.toList_inj, toList_identity, toList_identity, append_colon_eq_iff]

namespace Separable

variable {ms ns : List String}

theorem mono (h : Separable ms) (hsub : ns ⊆ ms) : Separable ns where
  ne_empty n hn := h.ne_empty n (hsub hn)
  no_colon n hn := h.no_colon n (hsub hn)
  no_prefix m hm n hn := h.no_prefix m (hsub hm) n (hsub hn)

theorem left (h : Separable (ms ++ ns)) : Separable ms := h.mono (List.subset_append_left ms ns)

theorem right (h : Separable (ms ++ ns)) : Separable ns := h.mono (List.subset_append_right ms ns)

theorem colon_not_mem_joined (h : Separable ms) : ':' ∉ joined ms := by
  intro hc
  obtain ⟨m, hm, hc⟩ := List.mem_flatMap.mp hc
  exact h.no_colon m hm hc

theorem joined_eq_nil (h : Separable ms) (hnil : joined ms = []) : ms = [] := by
  cases ms with
  | nil => rfl
  | cons m ms =>
    rw [joined_cons, List.append_eq_nil_iff] at hnil
    exact absurd (String.toList_eq_nil_iff.mp hnil.1) (h.ne_empty m (by simp))

/-- The methods can be read off the text that they make. -/
theorem joined_inj (h : Separable (ms ++ ns)) (heq : joined ms = joined ns) : ms = ns := by
  induction ms generalizing ns with
  | nil => exact (h.right.joined_eq_nil heq.symm).symm
  | cons m ms ih =>
    cases ns with
    | nil => exact h.left.joined_eq_nil heq
    | cons n ns =>
      rw [joined_cons, joined_cons] at heq
      have hm : m.toList <+: m.toList ++ joined ms := List.prefix_append _ _
      have hn : n.toList <+: m.toList ++ joined ms := heq ▸ List.prefix_append _ _
      -- both start the text, so the shorter one begins the other
      have hmn : m = n := by
        cases List.prefix_or_prefix_of_prefix hm hn with
        | inl hp => exact h.no_prefix m (by simp) n (by simp) hp
        | inr hp => exact (h.no_prefix n (by simp) m (by simp) hp).symm
      subst hmn
      have hsub : ms ++ ns ⊆ (m :: ms) ++ (m :: ns) :=
        ((List.sublist_cons_self m ms).append (List.sublist_cons_self m ns)).subset
      rw [ih (h.mono hsub) (List.append_cancel_left heq)]

theorem confusable_iff (h : Separable (ms ++ ns)) {u v : List Char} :
    Confusable u v (joined ms) (joined ns) ↔ u = v ∧ ms = ns := by
  constructor
  · intro hconf
    cases hconf with
    | inl hconf => exact ⟨hconf.1, h.joined_inj hconf.2⟩
    | inr hconf =>
      obtain ⟨t, -, ht⟩ | ⟨t, -, ht⟩ := hconf
      · exact absurd (ht ▸ List.mem_append_right t List.mem_cons_self) h.left.colon_not_mem_joined
      · exact absurd (ht ▸ List.mem_append_right t List.mem_cons_self) h.right.colon_not_mem_joined
  · rintro ⟨rfl, rfl⟩
    exact .inl ⟨rfl, rfl⟩

end Separable

def verbs : List String :=
  ["CONNECT", "DELETE", "GET", "OPTIONS", "PATCH", "POST", "PUT", "TRACE"]

theorem separable_verbs : Separable verbs := ⟨by decide, by decide, by decide⟩

def Normalized (r : Route) : Prop := ∃ ms, r.methods = normalizeMethods ms

theorem Normalized.sortTexts_methods {r : Route} (h : r.Normalized) :
    sortTexts r.methods = r.methods := by
  obtain ⟨ms, hms⟩ := h
  rw [hms, sortTexts_normalizeMethods]

theorem normalized_make (uri : String) (methods : List String) (handler : HandlerRef) :
    (make uri methods handler).Normalized := ⟨methods, rfl⟩

/-- Two routes share an id just when one text can be read as both of them, and then they are the same
if their methods are separable. Two texts that differ are taken to have different digests. -/
theorem id_eq_iff (r s : Route) (hr : r.Normalized) (hs : s.Normalized)
    (hmd5 : Md5.ofText (identity r.uri r.methods) = Md5.ofText (identity s.uri s.methods) →
      identity r.uri r.methods = identity s.uri s.methods) :
    (id r.uri r.methods = id s.uri s.methods ↔
        Confusable r.uri.toList s.uri.toList (joined r.methods) (joined s.methods)) ∧
      (Separable (r.methods ++ s.methods) →
        (id r.uri r.methods = id s.uri s.methods ↔ r.uri = s.uri ∧ r.methods = s.methods)) := by
  have hid : id r.uri r.methods = id s.uri s.methods ↔
      identity r.uri r.methods = identity s.uri s.methods := ⟨hmd5, congrArg Md5.ofText⟩
  have htexts : id r.uri r.methods = id s.uri s.methods ↔
      Confusable r.uri.toList s.uri.toList (joined r.methods) (joined s.methods) := by
    rw [hid, identity_eq_iff, hr.sortTexts_methods, hs.sortTexts_methods]
  refine ⟨htexts, fun hsep => ?_⟩
  rw [htexts, hsep.confusable_iff, String.toList_inj]

theorem identity_of_normalized {r : Route} (h : r.Normalized) :
    identity r.uri r.methods = r.uri ++ ":" ++ String.join r.methods := by
  rw [identity, h.sortTexts_methods]

/-- Nothing is left to sort where the methods come in order. -/
theorem normalizeMethods_of_sorted {ms ns : List String}
    (h : (ms.map Text.upper).eraseDups.filter (· != "HEAD") = ns)
    (hns : ns.Pairwise fun a b => decide (a ≤ b) = true) : normalizeMethods ms = ns := by
  rw [normalizeMethods, h]
  exact List.mergeSort_of_pairwise hns

def twoMethods : Route := make "/a" ["get", "head", "POST"] ⟨"app:A", "run"⟩

theorem twoMethods_methods : twoMethods.methods = ["GET", "POST"] :=
  normalizeMethods_of_sorted (by decide +kernel) (by decide)

theorem twoMethods_normalized : twoMethods.Normalized := normalized_make _ _ _

theorem identity_twoMethods : identity twoMethods.uri twoMethods.methods = "/a:GETPOST" := by
  rw [identity_of_normalized twoMethods_normalized, twoMethods_methods]
  rfl

def oneMethod : Route := make "/a" ["get"] ⟨"app:A", "run"⟩

theorem id_eq_iff_oneMethod :
    twoMethods.Normalized ∧ oneMethod.Normalized ∧
      Separable (twoMethods.methods ++ oneMethod.methods) ∧
      (id twoMethods.uri twoMethods.methods = id oneMethod.uri oneMethod.methods ↔
        twoMethods.uri = oneMethod.uri ∧ twoMethods.methods = oneMethod.methods) := by
  have hone : oneMethod.methods = ["GET"] := normalizeMethods_of_sorted (by decide +kernel) (by decide)
  have hnormal : oneMethod.Normalized := normalized_make _ _ _
  have hsep : Separable (twoMethods.methods ++ oneMethod.methods) := by
    rw [twoMethods_methods, hone]
    exact separable_verbs.mono (by decide)
  have htext : identity oneMethod.uri oneMethod.methods = "/a:GET" := by
    rw [identity_of_normalized hnormal, hone]
    rfl
  have hdigest : Md5.ofText "/a:GETPOST" ≠ Md5.ofText "/a:GET" := by decide +kernel
  have hmd5 : Md5.ofText (identity twoMethods.uri twoMethods.methods) =
        Md5.ofText (identity oneMethod.uri oneMethod.methods) →
      identity twoMethods.uri twoMethods.methods = identity oneMethod.uri oneMethod.methods := by
    rw [identity_twoMethods, htext]
    exact fun h => absurd h hdigest
  have h := id_eq_iff twoMethods oneMethod twoMethods_normalized hnormal hmd5
  exact ⟨twoMethods_normalized, hnormal, hsep, h.2 hsep⟩

def mergedMethod : Route := make "/a" ["GETPOST"] ⟨"app:A", "run"⟩

/-- One text is hashed for both of these routes, though their methods differ. -/
theorem id_mergedMethod :
    twoMethods.Normalized ∧ mergedMethod.Normalized ∧
      identity twoMethods.uri twoMethods.methods = identity mergedMethod.uri mergedMethod.methods ∧
      id twoMethods.uri twoMethods.methods = id mergedMethod.uri mergedMethod.methods ∧
      twoMethods.methods ≠ mergedMethod.methods := by
  have hmerged : mergedMethod.methods = ["GETPOST"] :=
    normalizeMethods_of_sorted (by decide +kernel) (by decide)
  have hnormal : mergedMethod.Normalized := normalized_make _ _ _
  have htext : identity mergedMethod.uri mergedMethod.methods = "/a:GETPOST" := by
    rw [identity_of_normalized hnormal, hmerged]
    rfl
  have hsame := identity_twoMethods.trans htext.symm
  refine ⟨twoMethods_normalized, hnormal, hsame, congrArg Md5.ofText hsame, ?_⟩
  rw [twoMethods_methods, hmerged]
  decide

end RouteDoc.Route
