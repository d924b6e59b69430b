import RouteDoc.Proofs.Parameter.Grammar
import RouteDoc.Proofs.Run
/-! Cursors under calls in any order. The words that a cursor gives are those of its text, in order and each
once; looking ahead moves nothing; and what is taken at the end is the text that is left. -/
namespace RouteDoc

namespace Text

/-- The runs of ink in a text, each as long as it can be: before the next one there is a blank. -/
inductive Runs : List Char → List (List Char) → Prop
  | blank {b : List Char} (hb : AllBlank b) : Runs b []
  | word {a w t : List Char} {ws : List (List Char)} (ha : AllBlank a) (hw : IsWord w)
      (ht : OffWord t) (h : Runs t ws) : Runs (a ++ w ++ t) (w :: ws)

theorem IsWord.words_append {a w t : List Char} (hw : IsWord w) (ha : AllBlank a) (ht : OffWord t) :
    words (a ++ w ++ t) = w :: words t := by
  rw [List.append_assoc, words_append_blank ha, words_word hw.inked hw.ne_nil ht]

theorem runs_iff {s : List Char} {ws : List (List Char)} : Runs s ws ↔ words s = ws := by
  constructor
  · intro h
    induction h with
    | blank hb => exact hb.words_eq
    | word ha hw ht _ ih => rw [hw.words_append ha ht, ih]
  · intro h
    induction ws generalizing s with
    | nil => exact .blank (words_eq_nil_iff.mp h)
    | cons w ws ih =>
      obtain ⟨a, t, rfl, ha, hw, ht, hws⟩ := exists_word h
      exact .word ha hw ht (ih hws)

end Text

open Text

namespace Cursor

inductive Call where
  | next | peek | hasMore | rest
deriving DecidableEq

def Call.Looks (call : Call) : Prop := call = .peek ∨ call = .hasMore

inductive Answer where
  | word (w : Option (List Char))
  | peeked (w : Option (List Char)) (followed : Bool)
  | more (b : Bool)
  | remainder (s : List Char)
deriving DecidableEq

def perform (c : Cursor) : Call → Answer × Cursor
  | .next => (.word c.next.1, c.next.2)
  | .peek => (.peeked c.peek.1 c.peek.2, c)
  | .hasMore => (.more c.hasMore, c)
  | .rest => (.remainder c.rest.1, c.rest.2)

inductive Sees (c : Cursor) : Prop
  | blank (h : AllBlank c.ahead) (hnext : c.next = (none, c)) (hpeek : c.peek = (none, false))
  | word {a w t : List Char} (ha : AllBlank a) (hw : IsWord w) (ht : OffWord t)
      (hahead : c.ahead = a ++ w ++ t) (hnext : c.next = (some w, ⟨c.passed ++ a ++ w, t⟩))
      (hpeek : c.peek = (some w, !t.isEmpty))

theorem sees (c : Cursor) : Sees c := by
  by_cases h : AllBlank c.ahead
  · exact .blank h (next_of_allBlank h) (by rw [peek, splitWord_of_allBlank h])
  · obtain ⟨a, w, t, hahead, ha, hw, hne, ht, -⟩ := exists_first_word h
    have hsplit : splitWord c.ahead = some (a, w, t) := by
      rw [hahead, splitWord_append ha hw hne ht]
    exact .word ha ⟨hw, hne⟩ ht hahead (next_of_splitWord hsplit) (peek_of_splitWord hsplit)

theorem next_fst (c : Cursor) : c.next.1 = (words c.ahead).head? := by
  cases c.sees with
  | blank h hnext _ => rw [hnext, h.words_eq]; rfl
  | word ha hw ht hahead hnext _ => rw [hnext, hahead, hw.words_append ha ht]; rfl

theorem words_next (c : Cursor) : words c.next.2.ahead = (words c.ahead).tail := by
  cases c.sees with
  | blank h hnext _ => rw [hnext, h.words_eq]; rfl
  | word ha hw ht hahead hnext _ => rw [hnext, hahead, hw.words_append ha ht]; rfl

theorem peek_fst (c : Cursor) : c.peek.1 = c.next.1 := by
  cases c.sees with
  | blank _ hnext hpeek => rw [hnext, hpeek]
  | word _ _ _ _ hnext hpeek => rw [hnext, hpeek]

/-- The flag tells whether anything lies behind the word that comes next. -/
theorem peek_snd (c : Cursor) : c.peek.2 = true ↔ c.next.1 ≠ none ∧ c.next.2.ahead ≠ [] := by
  cases c.sees with
  | blank _ hnext hpeek => simp [hnext, hpeek]
  | word _ _ _ _ hnext hpeek => simp [hnext, hpeek]

/-- The cursor comes to stand right behind the word that it gives. -/
theorem suffix_of_next {c : Cursor} {w : List Char} (h : c.next.1 = some w) :
    w <:+ c.next.2.passed := by
  cases c.sees with
  | blank _ hnext _ => simp [hnext] at h
  | @word a v t _ _ _ _ hnext _ =>
    rw [hnext] at h ⊢
    obtain rfl := Option.some.inj h
    exact List.suffix_append (c.passed ++ a) v

theorem text_perform (c : Cursor) (call : Call) : (c.perform call).2.text = c.text := by
  cases call with
  | next =>
    cases c.sees with
    | blank _ hnext _ => rw [perform, hnext]
    | word _ _ _ hahead hnext _ =>
      rw [perform, hnext, text, text, hahead]
      simp only [List.append_assoc]
  | rest => simp [perform, rest, text]
  | _ => rfl

theorem position_le_perform (c : Cursor) (call : Call) :
    c.position ≤ (c.perform call).2.position := by
  cases call with
  | next =>
    cases c.sees with
    | blank _ hnext _ => rw [perform, hnext]
    | word _ _ _ _ hnext _ =>
      rw [perform, hnext]
      simp [position]
  | rest => simp [perform, rest, position]
  | _ => exact Nat.le_refl _

def after (s : List Char) (calls : List Call) : Cursor := Run.after perform (start s) calls

def answers (s : List Char) (calls : List Call) : List Answer := Run.answers perform (start s) calls

variable (s : List Char) (calls : List Call)

theorem after_concat (call : Call) : after s (calls ++ [call]) = ((after s calls).perform call).2 :=
  Run.after_concat perform (start s) calls call

theorem text_after : (after s calls).text = s :=
  Run.after_induction (P := fun c : Cursor => c.text = s) perform rfl
    (fun c call h => (c.text_perform call).trans h) calls

theorem take_position : s.take (after s calls).position = (after s calls).passed := by
  have h : (after s calls).text.take (after s calls).position = (after s calls).passed :=
    List.take_left
  rwa [text_after] at h

theorem drop_position : s.drop (after s calls).position = (after s calls).ahead := by
  have h : (after s calls).text.drop (after s calls).position = (after s calls).ahead :=
    List.drop_left
  rwa [text_after] at h

theorem position_le_length : (after s calls).position ≤ s.length := by
  conv_rhs => rw [← text_after s calls]
  simp [text, position]

theorem position_lt_length_iff : (after s calls).position < s.length ↔ (after s calls).ahead ≠ [] := by
  rw [← drop_position, ne_eq, List.drop_eq_nil_iff, Nat.not_le]

def pending (s : List Char) (calls : List Call) : List (List Char) :=
  if .rest ∈ calls then [] else (words s).drop (calls.count .next)

theorem ahead_of_rest_mem (h : .rest ∈ calls) : (after s calls).ahead = [] := by
  induction calls using List.reverseRecOn with
  | nil => cases h
  | append_singleton calls call ih =>
    rw [after_concat]
    by_cases hcall : call = .rest
    · rw [hcall]
      rfl
    · have hahead := ih (by simpa [Ne.symm hcall] using h)
      cases call with
      | next => rw [perform, next_of_allBlank (by simp [hahead, AllBlank])]; exact hahead
      | rest => exact absurd rfl hcall
      | _ => exact hahead

/-- Only a call for the next word takes a word away. -/
theorem words_after : words (after s calls).ahead = pending s calls := by
  induction calls using List.reverseRecOn with
  | nil => simp [after, Run.after, start, pending]
  | append_singleton calls call ih =>
    by_cases hrest : .rest ∈ calls ++ [call]
    · rw [ahead_of_rest_mem s _ hrest, pending, if_pos hrest, words_nil]
    · have hbefore : .rest ∉ calls := fun h => hrest (List.mem_append_left _ h)
      rw [pending, if_neg hbefore] at ih
      rw [after_concat, pending, if_neg hrest, List.count_append]
      cases call with
      | next => simp [perform, words_next, ih]
      | rest => simp at hrest
      | _ => simpa [perform] using ih

/-- What a call is answered after others: the next word that lies ahead and, on a mere look, whether the text
goes on behind it; whether the text goes on behind the cursor; or all that lies there. -/
inductive Reply (s : List Char) (before : List Call) : Call → Answer → Prop
  | next (hbehind : ∀ w ∈ (pending s before).head?,
        w <:+ s.take (after s (before ++ [.next])).position) :
      Reply s before .next (.word (pending s before).head?)
  | peek {followed : Bool} (hfollowed : followed = true ↔
        pending s before ≠ [] ∧ (after s (before ++ [.next])).position < s.length) :
      Reply s before .peek (.peeked (pending s before).head? followed)
  | hasMore {b : Bool} (h : b = true ↔ (after s before).position < s.length) :
      Reply s before .hasMore (.more b)
  | rest {t : List Char} (h : s.take (after s before).position ++ t = s) :
      Reply s before .rest (.remainder t)

theorem reply_perform (call : Call) : Reply s calls call ((after s calls).perform call).1 := by
  have hword : (after s calls).next.1 = (pending s calls).head? := by rw [next_fst, words_after]
  have hstep : after s (calls ++ [.next]) = (after s calls).next.2 := after_concat s calls .next
  cases call with
  | next =>
    rw [perform, hword]
    refine .next fun w hw => ?_
    rw [take_position, hstep]
    exact suffix_of_next (hword.trans hw)
  | peek =>
    rw [perform, peek_fst, hword]
    refine .peek ?_
    rw [peek_snd, hword, position_lt_length_iff, hstep]
    simp
  | hasMore =>
    refine .hasMore ?_
    rw [position_lt_length_iff, hasMore]
    simp
  | rest =>
    refine .rest ?_
    rw [take_position]
    exact text_after s calls

/-- Looks between two calls keep the words that lie ahead. -/
theorem pending_append_looks {between : List Call} (h : ∀ call ∈ between, call.Looks) :
    pending s (calls ++ between) = pending s calls := by
  have hnext : .next ∉ between := fun hmem => by simpa [Call.Looks] using h _ hmem
  have hrest : .rest ∉ between := fun hmem => by simpa [Call.Looks] using h _ hmem
  simp [pending, List.count_eq_zero_of_not_mem hnext, hrest]

theorem answer_of_split {calls before behind : List Call} {call : Call}
    (h : calls = before ++ call :: behind) :
    (answers s calls)[before.length]? = some ((after s before).perform call).1 := by
  rw [h]
  exact Run.getElem?_answers perform (start s) before call behind

/-- However it is called, a cursor goes through its text without going back or past the end. The words that it
gives are the runs of ink in order, and a look gives the one that the next call for a word gives and moves
nothing. The rest is what the words given before have left, and then nothing is left. -/
theorem answers_inOrder :
    Runs s (words s) ∧
      (∀ before call behind, calls = before ++ call :: behind →
        (after s before).position ≤ (after s (before ++ [call])).position ∧
          (after s (before ++ [call])).position ≤ s.length ∧
          (call.Looks → after s (before ++ [call]) = after s before) ∧
          (.rest ∈ before → (after s before).position = s.length) ∧
          ∃ answer, (answers s calls)[before.length]? = some answer ∧ Reply s before call answer) ∧
      ∀ before between behind, calls = before ++ .peek :: (between ++ .next :: behind) →
        (∀ call ∈ between, call.Looks) →
        ∃ w followed, (answers s calls)[before.length]? = some (.peeked w followed) ∧
          (answers s calls)[(before ++ .peek :: between).length]? = some (.word w) := by
  refine ⟨runs_iff.mpr rfl, fun before call behind hcalls => ⟨?_, position_le_length s _,
    fun hlooks => ?_, fun hrest => ?_, _, answer_of_split s hcalls, reply_perform s before call⟩,
    fun before between behind hcalls hlooks => ?_⟩
  · rw [after_concat]
    exact position_le_perform _ call
  · rw [after_concat]
    obtain rfl | rfl := hlooks <;> rfl
  · have hle := position_le_length s before
    have hend := (position_lt_length_iff s before).not.mpr (by simp [ahead_of_rest_mem s before hrest])
    omega
  · have hlater : ∀ call ∈ .peek :: between, call.Looks :=
      List.forall_mem_cons.mpr ⟨.inl rfl, hlooks⟩
    have hcalls' : calls = (before ++ .peek :: between) ++ .next :: behind := by simp [hcalls]
    refine ⟨(pending s before).head?, (after s before).peek.2, ?_, ?_⟩
    · rw [answer_of_split s hcalls, perform, peek_fst, next_fst, words_after]
    · rw [answer_of_split s hcalls', perform, next_fst, words_after, pending_append_looks s before hlater]

def spaced : List Char := " a\u3000bc ".toList

def spacedCalls : List Call := [.peek, .hasMore, .next, .peek, .next, .next, .rest, .next]

theorem answers_inOrder_spaced :
    answers spaced spacedCalls =
        [.peeked (some ['a']) true, .more true, .word (some ['a']), .peeked (some ['b', 'c']) true,
          .word (some ['b', 'c']), .word none, .remainder [' '], .word none] ∧
      Runs spaced [['a'], ['b', 'c']] ∧
      after spaced [.peek, .hasMore] = after spaced [.peek] ∧
      ∃ w followed, (answers spaced spacedCalls)[0]? = some (.peeked w followed) ∧
        (answers spaced spacedCalls)[2]? = some (.word w) := by
  obtain ⟨hruns, hcalls, hlook⟩ := answers_inOrder spaced spacedCalls
  obtain ⟨-, -, hmoves, -⟩ := hcalls [.peek] .hasMore [.next, .peek, .next, .next, .rest, .next] rfl
  exact ⟨by decide, hruns, hmoves (.inr rfl),
    hlook [] [.hasMore] [.peek, .next, .next, .rest, .next] rfl (by simp [Call.Looks])⟩

end Cursor
end RouteDoc
