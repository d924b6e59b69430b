import RouteDoc.Assoc
import Mathlib.Data.List.Forall2
import Mathlib.Data.List.Induction
import Mathlib.Data.List.Nodup
/-! Ordered maps. A map made of a list has its keys in the order in which they first came, each with
the value that came last; to insert a map is to insert the list that it was made of. A list of pairs
with distinct keys is its own map, and maps built in step have related entries in step. -/
namespace RouteDoc.Assoc
variable {κ α β : Type} [BEq κ]

theorem insertAll_cons (m : List (κ × α)) (k : κ) (v : α) (l : List (κ × α)) :
    insertAll m ((k, v) :: l) = insertAll (insert k v m) l := rfl

theorem insertAll_append (m l l' : List (κ × α)) :
    insertAll m (l ++ l') = insertAll (insertAll m l) l' := List.foldl_append

theorem ofList_concat (l : List (κ × α)) (k : κ) (v : α) :
    ofList (l ++ [(k, v)]) = insert k v (ofList l) := insertAll_append [] l [(k, v)]

/-- What holds of all values that came in holds of the values of a map. -/
theorem forall_value_insert {P : α → Prop} {k : κ} {v : α} {m : List (κ × α)} (hv : P v)
    (hm : ∀ e ∈ m, P e.2) : ∀ e ∈ insert k v m, P e.2 := by
  induction m with
  | nil => simpa [insert] using hv
  | cons p m ih =>
    obtain ⟨hp, hm⟩ := List.forall_mem_cons.mp hm
    rw [insert]
    split
    · exact List.forall_mem_cons.mpr ⟨hv, hm⟩
    · exact List.forall_mem_cons.mpr ⟨hp, ih hm⟩

theorem forall_value_insertAll {P : α → Prop} {m l : List (κ × α)} (hm : ∀ e ∈ m, P e.2)
    (hl : ∀ e ∈ l, P e.2) : ∀ e ∈ insertAll m l, P e.2 := by
  induction l generalizing m with
  | nil => exact hm
  | cons p l ih =>
    obtain ⟨hp, hl⟩ := List.forall_mem_cons.mp hl
    exact ih (forall_value_insert hp hm) hl

theorem forall_value_ofList {P : α → Prop} {l : List (κ × α)} (hl : ∀ e ∈ l, P e.2) :
    ∀ e ∈ ofList l, P e.2 :=
  forall_value_insertAll (by simp) hl

/-- Keys under other names make the same map. -/
theorem insert_map {ι : Type} [BEq ι] {f : κ → ι} (hf : ∀ a b, (f a == f b) = (a == b)) (k : κ) (v : α)
    (m : List (κ × α)) : insert (f k) v (m.map (Prod.map f id)) = (insert k v m).map (Prod.map f id) := by
  induction m with
  | nil => rfl
  | cons p m ih =>
    rw [List.map_cons, Prod.map, insert, insert, hf, ih]
    split <;> rfl

theorem ofList_map {ι : Type} [BEq ι] {f : κ → ι} (hf : ∀ a b, (f a == f b) = (a == b))
    (l : List (κ × α)) : ofList (l.map (Prod.map f id)) = (ofList l).map (Prod.map f id) := by
  induction l using List.reverseRecOn with
  | nil => rfl
  | append_singleton l p ih =>
    rw [List.map_append, List.map_singleton, ofList_concat, ih, Prod.map, insert_map hf, id,
      ← ofList_concat]

variable [LawfulBEq κ]

theorem insert_of_not_mem {k : κ} {m : List (κ × α)} (h : k ∉ keys m) (v : α) :
    insert k v m = m ++ [(k, v)] := by
  induction m with
  | nil => rfl
  | cons p m ih =>
    obtain ⟨hne, hm⟩ : ¬k = p.1 ∧ k ∉ keys m := by simpa [keys] using h
    have hbeq : (p.1 == k) = false := by simpa using Ne.symm hne
    simp [insert, hbeq, ih hm]

theorem insertAll_of_nodup {m l : List (κ × α)} (h : (keys (m ++ l)).Nodup) :
    insertAll m l = m ++ l := by
  induction l generalizing m with
  | nil => simp [insertAll]
  | cons p l ih =>
    have happ : m ++ p :: l = (m ++ [p]) ++ l := by simp
    have hp : p.1 ∉ keys m := by
      rw [keys, List.map_append, List.map_cons] at h
      exact fun hk => List.disjoint_of_nodup_append h hk (by simp)
    rw [insertAll, List.foldl_cons, insert_of_not_mem hp, ← insertAll, happ]
    exact ih (happ ▸ h)

/-- Pairs with distinct keys are the map that they make. -/
theorem ofList_of_nodup {l : List (κ × α)} (h : (keys l).Nodup) : ofList l = l :=
  insertAll_of_nodup (m := []) h

theorem insert_cons_self (k : κ) (v w : α) (m : List (κ × α)) :
    insert k v ((k, w) :: m) = (k, v) :: m := by
  simp [insert]

theorem insert_cons_of_ne {k j : κ} (h : j ≠ k) (v w : α) (m : List (κ × α)) :
    insert k v ((j, w) :: m) = (j, w) :: insert k v m := by
  simp [insert, h]

theorem keys_insert_of_mem {k : κ} {m : List (κ × α)} (h : k ∈ keys m) (v : α) :
    keys (insert k v m) = keys m := by
  induction m with
  | nil => simp [keys] at h
  | cons p m ih =>
    obtain ⟨j, w⟩ := p
    by_cases hj : j = k
    · subst hj
      rw [insert_cons_self]
      rfl
    · have hm : k ∈ keys m := by simpa [keys, Ne.symm hj] using h
      rw [insert_cons_of_ne hj]
      exact congrArg (j :: ·) (ih hm)

theorem keys_insert_of_not_mem {k : κ} {m : List (κ × α)} (h : k ∉ keys m) (v : α) :
    keys (insert k v m) = keys m ++ [k] := by
  rw [insert_of_not_mem h]
  simp [keys]

theorem mem_insert {k : κ} {v : α} {m : List (κ × α)} {e : κ × α} (h : e ∈ insert k v m) :
    e = (k, v) ∨ e ∈ m := by
  induction m with
  | nil => exact .inl (by simpa [insert] using h)
  | cons p m ih =>
    obtain ⟨j, w⟩ := p
    by_cases hj : j = k
    · subst hj
      rw [insert_cons_self, List.mem_cons] at h
      exact h.imp_right (List.mem_cons_of_mem _)
    · rw [insert_cons_of_ne hj, List.mem_cons] at h
      cases h with
      | inl h => exact .inr (by simp [h])
      | inr h => exact (ih h).imp_right (List.mem_cons_of_mem _)

theorem get?_insert_self (k : κ) (v : α) (m : List (κ × α)) : get? k (insert k v m) = some v := by
  induction m with
  | nil => simp [insert, get?]
  | cons p m ih =>
    obtain ⟨j, w⟩ := p
    by_cases hj : j = k
    · subst hj
      simp [insert_cons_self, get?]
    · simp [insert_cons_of_ne hj, get?, hj, ih]

theorem get?_insert_of_ne {k j : κ} (h : j ≠ k) (v : α) (m : List (κ × α)) :
    get? j (insert k v m) = get? j m := by
  induction m with
  | nil => simp [insert, get?, Ne.symm h]
  | cons p m ih =>
    obtain ⟨i, w⟩ := p
    by_cases hi : i = k
    · subst hi
      simp [insert_cons_self, get?, Ne.symm h]
    · simp [insert_cons_of_ne hi, get?, ih]

theorem insert_insert (k : κ) (v w : α) (m : List (κ × α)) :
    insert k v (insert k w m) = insert k v m := by
  induction m with
  | nil => simp [insert]
  | cons p m ih =>
    obtain ⟨j, u⟩ := p
    by_cases hj : j = k
    · subst hj
      simp only [insert_cons_self]
    · simp only [insert_cons_of_ne hj, ih]

/-- Insertions under two keys change places when the map has one of the keys already. -/
theorem insert_comm {k j : κ} (hne : k ≠ j) {m : List (κ × α)} (h : k ∈ keys m) (v w : α) :
    insert k v (insert j w m) = insert j w (insert k v m) := by
  induction m with
  | nil => simp [keys] at h
  | cons p m ih =>
    obtain ⟨i, u⟩ := p
    by_cases hk : i = k
    · subst hk
      rw [insert_cons_of_ne hne, insert_cons_self, insert_cons_self, insert_cons_of_ne hne]
    · have hm : k ∈ keys m := by simpa [keys, Ne.symm hk] using h
      by_cases hj : i = j
      · subst hj
        rw [insert_cons_self, insert_cons_of_ne hk, insert_cons_of_ne hk, insert_cons_self]
      · rw [insert_cons_of_ne hj, insert_cons_of_ne hk, insert_cons_of_ne hk, insert_cons_of_ne hj,
          ih hm]

theorem get?_insertAll_of_not_mem {k : κ} {l : List (κ × α)} (h : k ∉ keys l) (m : List (κ × α)) :
    get? k (insertAll m l) = get? k m := by
  induction l generalizing m with
  | nil => rfl
  | cons p l ih =>
    obtain ⟨hne, hl⟩ : k ≠ p.1 ∧ k ∉ keys l := by simpa [keys] using h
    exact (ih hl _).trans (get?_insert_of_ne hne p.2 m)

/-- A key has the value that came last. -/
theorem get?_ofList {k : κ} {behind : List (κ × α)} (h : k ∉ keys behind) (front : List (κ × α))
    (v : α) : get? k (ofList (front ++ (k, v) :: behind)) = some v := by
  rw [ofList, insertAll_append, insertAll_cons, get?_insertAll_of_not_mem h, get?_insert_self]

theorem mem_of_mem_ofList {l : List (κ × α)} {e : κ × α} (h : e ∈ ofList l) : e ∈ l := by
  induction l using List.reverseRecOn with
  | nil => exact h
  | append_singleton l p ih =>
    rw [ofList_concat] at h
    cases mem_insert h with
    | inl h => simp [h]
    | inr h => exact List.mem_append_left _ (ih h)

/-- A key stands where it came first. -/
theorem keys_ofList (l : List (κ × α)) : keys (ofList l) = (keys l).eraseDups := by
  induction l using List.reverseRecOn with
  | nil => rfl
  | append_singleton l p ih =>
    obtain ⟨k, v⟩ := p
    have hkeys : keys (l ++ [(k, v)]) = keys l ++ [k] := by simp [keys]
    rw [ofList_concat, hkeys, List.eraseDups_append, ← ih]
    by_cases hk : k ∈ keys l
    · have hk' : k ∈ keys (ofList l) := by rwa [ih, List.mem_eraseDups]
      rw [keys_insert_of_mem hk']
      simp [List.removeAll, hk]
    · have hk' : k ∉ keys (ofList l) := by rwa [ih, List.mem_eraseDups]
      rw [keys_insert_of_not_mem hk']
      simp [List.removeAll, hk, List.eraseDups_cons]

theorem nodup_keys_ofList (l : List (κ × α)) : (keys (ofList l)).Nodup := by
  induction l using List.reverseRecOn with
  | nil => exact List.nodup_nil
  | append_singleton l p ih =>
    rw [ofList_concat]
    by_cases hk : p.1 ∈ keys (ofList l)
    · rwa [keys_insert_of_mem hk]
    · rw [keys_insert_of_not_mem hk]
      exact List.nodup_append.mpr ⟨ih, by simp, fun k hl j hj => by
        rintro rfl
        exact hk (List.mem_singleton.mp hj ▸ hl)⟩

theorem insertAll_insert_of_not_mem {k : κ} {m l : List (κ × α)} (hm : k ∈ keys m)
    (hl : k ∉ keys l) (v : α) : insertAll (insert k v m) l = insert k v (insertAll m l) := by
  induction l generalizing m with
  | nil => rfl
  | cons p l ih =>
    obtain ⟨hne, hl'⟩ : k ≠ p.1 ∧ k ∉ keys l := by simpa [keys] using hl
    have hk : k ∈ keys (insert p.1 p.2 m) := by
      by_cases hp : p.1 ∈ keys m
      · rwa [keys_insert_of_mem hp]
      · simp [keys_insert_of_not_mem hp, hm]
    have hstep := ih hk hl'
    rw [insert_comm hne hm] at hstep
    exact hstep

theorem insertAll_insert {n : List (κ × α)} (h : (keys n).Nodup) (m : List (κ × α)) (k : κ) (v : α) :
    insertAll m (insert k v n) = insert k v (insertAll m n) := by
  induction n generalizing m with
  | nil => rfl
  | cons p n ih =>
    obtain ⟨j, w⟩ := p
    obtain ⟨hj, hn⟩ : j ∉ keys n ∧ (keys n).Nodup := by simpa [keys] using h
    by_cases hk : j = k
    · subst hk
      have hmem : j ∈ keys (insert j w m) := by
        by_cases hm : j ∈ keys m
        · rwa [keys_insert_of_mem hm]
        · simp [keys_insert_of_not_mem hm]
      rw [insert_cons_self, insertAll_cons, insertAll_cons, ← insertAll_insert_of_not_mem hmem hj,
        insert_insert]
    · rw [insert_cons_of_ne hk, insertAll_cons, insertAll_cons, ih hn]

/-- To insert a map is to insert the pairs that it was made of. -/
theorem insertAll_ofList (m l : List (κ × α)) : insertAll m (ofList l) = insertAll m l := by
  induction l using List.reverseRecOn with
  | nil => rfl
  | append_singleton l p ih =>
    rw [ofList_concat, insertAll_insert (nodup_keys_ofList l), ih, insertAll_append]
    rfl

omit [LawfulBEq κ]

def EntryRel (R : α → β → Prop) (p : κ × α) (q : κ × β) : Prop := p.1 = q.1 ∧ R p.2 q.2

theorem insert_forall₂ {R : α → β → Prop} {m : List (κ × α)} {n : List (κ × β)}
    (h : List.Forall₂ (EntryRel R) m n) (k : κ) {v : α} {w : β} (hv : R v w) :
    List.Forall₂ (EntryRel R) (insert k v m) (insert k w n) := by
  induction h with
  | nil => exact .cons ⟨rfl, hv⟩ .nil
  | @cons p q m n hpq _ ih =>
    obtain ⟨hk, hr⟩ := hpq
    rw [insert, insert, hk]
    cases q.1 == k with
    | true => exact .cons ⟨rfl, hv⟩ ‹_›
    | false => exact .cons ⟨rfl, hr⟩ ih

theorem insertAll_forall₂ {R : α → β → Prop} {m l : List (κ × α)} {n l' : List (κ × β)}
    (h : List.Forall₂ (EntryRel R) m n) (hl : List.Forall₂ (EntryRel R) l l') :
    List.Forall₂ (EntryRel R) (insertAll m l) (insertAll n l') := by
  induction hl generalizing m n with
  | nil => exact h
  | @cons p q l l' hpq _ ih =>
    rw [insertAll, insertAll, List.foldl_cons, List.foldl_cons, hpq.1]
    exact ih (insert_forall₂ h q.1 hpq.2)

end RouteDoc.Assoc
