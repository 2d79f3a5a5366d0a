import Mathlib.Data.List.TakeWhile
import RecipeFlow.Text.Blank

/-! Pieces of texts between separators. -/
namespace RecipeFlow.Text

variable {sep : Char} {piece p xs ys : List Char}

theorem splitFrom_append :
    splitFrom sep piece (xs ++ sep :: ys) = splitFrom sep piece xs ++ splitFrom sep [] ys := by
  induction xs generalizing piece with
  | nil => simp [splitFrom]
  | cons c xs ih =>
    rw [List.cons_append, splitFrom, splitFrom]
    split
    · rw [ih, List.cons_append]
    · exact ih

theorem splitFrom_of_notMem (h : sep ∉ xs) :
    splitFrom sep piece xs = [piece.reverse ++ xs] := by
  induction xs generalizing piece with
  | nil => rw [splitFrom, List.append_nil]
  | cons c xs ih =>
    rw [List.mem_cons, not_or] at h
    rw [splitFrom, if_neg (Ne.symm h.1), ih h.2]
    simp

theorem notMem_splitFrom (hpiece : sep ∉ piece) (h : p ∈ splitFrom sep piece xs) : sep ∉ p := by
  induction xs generalizing piece with
  | nil =>
    rw [splitFrom, List.mem_singleton] at h
    rw [h, List.mem_reverse]
    exact hpiece
  | cons c xs ih =>
    rw [splitFrom] at h
    split at h
    · rcases List.mem_cons.1 h with rfl | h
      · rw [List.mem_reverse]
        exact hpiece
      · exact ih List.not_mem_nil h
    · next hc =>
      refine ih ?_ h
      rw [List.mem_cons, not_or]
      exact ⟨Ne.symm hc, hpiece⟩

/-- No piece between separators holds one. -/
theorem notMem_of_mem_split (h : p ∈ split sep xs) : sep ∉ p :=
  notMem_splitFrom List.not_mem_nil h

/-- There is one piece more than there are separators. -/
theorem length_split : (split sep xs).length = xs.count sep + 1 := by
  have hall : ∀ piece, (splitFrom sep piece xs).length = xs.count sep + 1 := by
    induction xs with
    | nil => exact fun piece => rfl
    | cons c xs ih =>
      intro piece
      rw [splitFrom]
      by_cases hc : c = sep
      · subst hc
        rw [if_pos rfl, List.length_cons, ih, List.count_cons_self]
      · rw [if_neg hc, ih, List.count_cons_of_ne hc]
  exact hall []

/-- What stands before the first occurrence of a character, and what follows from there. -/
theorem takeWhile_ne (ys : List Char) (h : sep ∉ xs) :
    (xs ++ sep :: ys).takeWhile (· ≠ sep) = xs ∧
      (xs ++ sep :: ys).dropWhile (· ≠ sep) = sep :: ys := by
  have hne : ∀ d ∈ xs, decide (d ≠ sep) = true := by
    intro d hd
    simp only [decide_eq_true_eq]
    rintro rfl
    exact h hd
  rw [List.takeWhile_append_of_pos hne, List.dropWhile_append_of_pos hne]
  simp

/-- What follows the last occurrence of a character, or everything when there is none. -/
theorem last_takeWhile (sep : Char) (xs : List Char) :
    sep ∉ (xs.reverse.takeWhile (· != sep)).reverse ∧
      ((xs.reverse.takeWhile (· != sep)).reverse = xs ∨
        ∃ front, xs = front ++ sep :: (xs.reverse.takeWhile (· != sep)).reverse) := by
  have hsplit := List.takeWhile_append_dropWhile (p := (· != sep)) (l := xs.reverse)
  constructor
  · rw [List.mem_reverse]
    intro hmem
    simpa using List.mem_takeWhile_imp hmem
  · cases hfront : xs.reverse.dropWhile (· != sep) with
    | nil =>
      rw [hfront, List.append_nil] at hsplit
      exact .inl (by rw [hsplit, List.reverse_reverse])
    | cons c front =>
      have hhead := List.head?_dropWhile_not (· != sep) xs.reverse
      rw [hfront] at hhead
      obtain rfl : c = sep := by simpa using hhead
      rw [hfront] at hsplit
      have hwhole := congrArg List.reverse hsplit
      rw [List.reverse_append, List.reverse_cons, List.reverse_reverse,
        List.append_assoc] at hwhole
      exact .inr ⟨front.reverse, hwhole.symm⟩
end RecipeFlow.Text
