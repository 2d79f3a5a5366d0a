import RecipeFlow.Text.Blank

/-! Lines of texts: a line end closes a line whatever follows it, and takes one carriage return
along. -/
namespace RecipeFlow.Text

variable {line xs ys : List Char} {p : List Char → Bool}

theorem dropReturn_of_head (h : line.head? ≠ some '\r') : dropReturn line = line := by
  unfold dropReturn
  split
  · exact absurd rfl h
  · rfl

/-- Up to a line end, a text has the same lines whatever follows. -/
theorem linesFrom_append (line xs ys : List Char) :
    linesFrom line (xs ++ '\n' :: ys) = linesFrom line (xs ++ ['\n']) ++ lines ys := by
  induction xs generalizing line with
  | nil => simp [linesFrom, lines]
  | cons c xs ih =>
    rw [List.cons_append, List.cons_append, linesFrom, linesFrom]
    by_cases hc : c = '\n'
    · rw [if_pos hc, if_pos hc, ih, List.cons_append]
    · rw [if_neg hc, if_neg hc, ih]

/-- What holds no line end is one line with the one that has been begun. -/
theorem linesFrom_of_notMem (h : '\n' ∉ xs) :
    linesFrom line (xs ++ '\n' :: ys) = (dropReturn (xs.reverse ++ line)).reverse :: lines ys := by
  induction xs generalizing line with
  | nil => simp [linesFrom, lines]
  | cons c xs ih =>
    rw [List.mem_cons, not_or] at h
    rw [List.cons_append, linesFrom, if_neg (Ne.symm h.1), ih h.2]
    simp

theorem lines_of_notMem (h : '\n' ∉ xs) (hne : xs ≠ []) : lines xs = [xs] := by
  have hall : ∀ line, line.reverse ++ xs ≠ [] → linesFrom line xs = [line.reverse ++ xs] := by
    induction xs with
    | nil =>
      intro line hline
      have hsome : line ≠ [] := by simpa using hline
      simp [linesFrom, hsome]
    | cons c xs ih =>
      intro line _
      rw [List.mem_cons, not_or] at h
      have hmore : (c :: line).reverse ++ xs ≠ [] := by simp
      rw [linesFrom, if_neg (Ne.symm h.1)]
      by_cases hxs : xs = []
      · subst hxs
        simp [linesFrom]
      · rw [ih h.2 hxs (c :: line) hmore]
        simp
  exact hall [] hne

/-- A line end at the end of a text adds a line that is empty, or none. -/
theorem filter_linesFrom (hp : p [] = false) (h : (line.reverse ++ xs).getLast? ≠ some '\r') :
    (linesFrom line (xs ++ ['\n'])).filter p = (linesFrom line xs).filter p := by
  induction xs generalizing line with
  | nil =>
    have hhead : line.head? ≠ some '\r' := by simpa [List.getLast?_reverse] using h
    cases line with
    | nil => simp [linesFrom, dropReturn, hp]
    | cons c line => simp [linesFrom, dropReturn_of_head hhead]
  | cons c xs ih =>
    rw [List.cons_append, linesFrom, linesFrom]
    by_cases hc : c = '\n'
    · have hrest : (([] : List Char).reverse ++ xs).getLast? ≠ some '\r' := by
        intro hlast
        obtain ⟨ys, rfl⟩ := List.getLast?_eq_some_iff.1 hlast
        apply h
        rw [← List.cons_append, ← List.append_assoc]
        exact List.getLast?_concat
      rw [if_pos hc, if_pos hc, List.filter_cons, List.filter_cons, ih hrest]
    · have hrest : ((c :: line).reverse ++ xs).getLast? ≠ some '\r' := by simpa using h
      rw [if_neg hc, if_neg hc, ih hrest]

end RecipeFlow.Text
