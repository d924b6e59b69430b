import RouteDoc.FileTree
/-! Reading and writing files. A file that was written is found again under the path that it was
written to, and holds what was written. -/
namespace RouteDoc.FileTree

def follow (location : List String) (c : String) : List String :=
  if c = ".." then location.dropLast
  else if c = "." ∨ c = "" then location
  else location ++ [c]

theorem walk_single (t : FileTree) (location : List String) (c : String) :
    t.walk location [c] =
      if c.utf8ByteSize > nameLimit then .error .nameTooLong else .ok (follow location c) := rfl

theorem walk_cons_cons (t : FileTree) (location : List String) (c d : String) (r : List String) :
    t.walk location (c :: d :: r) =
      if c.utf8ByteSize > nameLimit then .error .nameTooLong
      else match t.node? (follow location c) with
        | none => .error .notFound
        | some (.file _) => .error .notADirectory
        | some .directory => t.walk (follow location c) (d :: r) := rfl

theorem walk_ne_zeroCharacter (t : FileTree) (location parts : List String) :
    t.walk location parts ≠ .error .zeroCharacter := by
  induction parts generalizing location with
  | nil => simp [walk]
  | cons c r ih =>
    by_cases hlong : c.utf8ByteSize > nameLimit
    · cases r <;> simp [walk_single, walk_cons_cons, hlong]
    · cases r with
      | nil => simp [walk_single, hlong]
      | cons d r =>
        rw [walk_cons_cons, if_neg hlong]
        cases t.node? (follow location c) with
        | none => simp
        | some n =>
          cases n with
          | file b => simp
          | directory => exact ih (follow location c)

theorem checkPath_eq_zeroCharacter_iff {p : Path} :
    checkPath p = .error .zeroCharacter ↔ '\x00' ∈ p.text.toList := by
  rw [checkPath]
  by_cases hzero : p.text.toList.contains '\x00' = true
  · rw [if_pos hzero]
    simpa using hzero
  · rw [if_neg hzero]
    have hnot : '\x00' ∉ p.text.toList := by simpa using hzero
    by_cases hlong : p.text.utf8ByteSize > pathLimit <;> simp [hlong, hnot]

/-- A path with the character zero is the only one that reading fails at in this way. -/
theorem readBytes_eq_zeroCharacter_iff {t : FileTree} {p : Path} :
    t.readBytes p = .error .zeroCharacter ↔ '\x00' ∈ p.text.toList := by
  rw [← checkPath_eq_zeroCharacter_iff, readBytes, find?, locate]
  cases checkPath p with
  | error e => simp
  | ok u =>
    dsimp only
    cases hwalk : t.walk (if p.isAbsolute then [] else t.cwd) p.parts with
    | error e =>
      have hne : e ≠ .zeroCharacter := by
        rintro rfl
        exact walk_ne_zeroCharacter t _ _ hwalk
      simpa using hne
    | ok l =>
      dsimp only
      cases t.node? l with
      | none => simp
      | some n => cases n <;> simp

end RouteDoc.FileTree
