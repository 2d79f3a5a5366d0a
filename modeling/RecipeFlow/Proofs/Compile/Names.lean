import RecipeFlow.Compile.Visualization

/-! The names of tasks: which differ, and that none holds the dot of a reference. -/
namespace RecipeFlow

variable {m n k p k' p' : Nat} {x y : List Char}

theorem isDigit_of_mem_toString {c : Char} (h : c ∈ (toString n).toList) : c.isDigit = true := by
  rw [Nat.toString_eq_repr, Nat.toList_repr] at h
  exact Nat.isDigit_of_mem_toDigits (by omega) (by omega) h

theorem toString_inj (h : toString m = toString n) : m = n := by
  have hdigits : Nat.toDigits 10 m = Nat.toDigits 10 n := by
    rw [← Nat.toList_repr, ← Nat.toList_repr, ← Nat.toString_eq_repr, ← Nat.toString_eq_repr, h]
  rw [← Nat.ofDigitChars_ten_toDigits (n := m), hdigits, Nat.ofDigitChars_ten_toDigits]

theorem takeWhile_toString (hx : ∀ c ∈ x.head?, c.isDigit = false) :
    ((toString n).toList ++ x).takeWhile Char.isDigit = (toString n).toList := by
  have hnone : x.takeWhile Char.isDigit = [] := by
    cases x with
    | nil => rfl
    | cons c x => rw [List.takeWhile_cons, hx c rfl, if_neg Bool.false_ne_true]
  rw [List.takeWhile_append_of_pos fun c hc => isDigit_of_mem_toString hc, hnone,
    List.append_nil]

/-- A number and what is behind it can be told apart where that starts with no digit. -/
theorem toString_append_inj (hx : ∀ c ∈ x.head?, c.isDigit = false)
    (hy : ∀ c ∈ y.head?, c.isDigit = false)
    (h : (toString m).toList ++ x = (toString n).toList ++ y) : m = n ∧ x = y := by
  have hdigits : (toString m).toList = (toString n).toList := by
    rw [← takeWhile_toString hx, h, takeWhile_toString hy]
  rw [hdigits] at h
  exact ⟨toString_inj (String.toList_inj.1 hdigits), List.append_cancel_left h⟩

theorem dot_notMem_toString (n : Nat) : '.' ∉ (toString n).toList := by
  intro h
  cases isDigit_of_mem_toString h

namespace ShellWorkflow

theorem stepName_inj (h : stepName m = stepName n) : m = n := by
  have hlist := congrArg String.toList h
  simp only [stepName, String.toList_append] at hlist
  exact toString_inj (String.toList_inj.1 (List.append_cancel_left hlist))

theorem head_stepName (n : Nat) : (stepName n).toList.head? = some 's' := by
  rw [stepName, String.toList_append]
  rfl

theorem dot_notMem_stepName (n : Nat) : '.' ∉ (stepName n).toList := by
  rw [stepName, String.toList_append, List.mem_append, not_or]
  exact ⟨by decide, dot_notMem_toString n⟩

end ShellWorkflow

/-- No number goes on in what stands between those of a command and of a partition. -/
theorem head_partitionMark (x : List Char) :
    ∀ c ∈ ("-partition-".toList ++ x).head?, c.isDigit = false := by
  intro c hc
  cases hc
  decide

/-- Commands and partitions have tasks of their own. -/
theorem partitionName_inj (h : partitionName k p = partitionName k' p') : k = k' ∧ p = p' := by
  have hlist := congrArg String.toList h
  simp only [partitionName, String.toList_append, List.append_assoc] at hlist
  obtain ⟨hk, hp⟩ := toString_append_inj (head_partitionMark _) (head_partitionMark _)
    (List.append_cancel_left hlist)
  exact ⟨hk, toString_inj (String.toList_inj.1 (List.append_cancel_left hp))⟩

theorem head_partitionName (k p : Nat) : (partitionName k p).toList.head? = some 'c' := by
  simp only [partitionName, String.toList_append]
  rfl

theorem dot_notMem_partitionName (k p : Nat) : '.' ∉ (partitionName k p).toList := by
  simp only [partitionName, String.toList_append, List.mem_append, not_or]
  exact ⟨⟨⟨by decide, dot_notMem_toString k⟩, by decide⟩, dot_notMem_toString p⟩

end RecipeFlow
