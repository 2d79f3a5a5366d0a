import RecipeFlow.Text.Blank

/-! ASCII letters and digits as classes of characters, and what lower case does to them. -/
namespace RecipeFlow.Text

variable {c d : Char}

theorem isUpper_iff : c.isUpper = true ↔ 65 ≤ c.toNat ∧ c.toNat ≤ 90 := by
  show decide ('A'.val ≤ c.val ∧ c.val ≤ 'Z'.val) = true ↔ _
  rw [decide_eq_true_eq]
  rfl

theorem isLower_iff : c.isLower = true ↔ 97 ≤ c.toNat ∧ c.toNat ≤ 122 := by
  show (decide ('a'.val ≤ c.val) && decide (c.val ≤ 'z'.val)) = true ↔ _
  rw [Bool.and_eq_true, decide_eq_true_eq, decide_eq_true_eq]
  rfl

theorem isAsciiLetter_eq : isAsciiLetter c = (c.isUpper || c.isLower) := by
  rw [Bool.eq_iff_iff, Bool.or_eq_true, isUpper_iff, isLower_iff, or_comm]
  simp only [isAsciiLetter, Bool.or_eq_true, Bool.and_eq_true, decide_eq_true_eq]
  rfl

theorem isDigit_eq : isDigit c = c.isDigit := by
  rw [Bool.eq_iff_iff, Char.isDigit_iff_toNat]
  simp only [isDigit, Bool.and_eq_true, decide_eq_true_eq]
  rfl

theorem isAlphanum_eq : c.isAlphanum = (c.isUpper || c.isLower || c.isDigit) := rfl

theorem toNat_toLower (h : c.isUpper = true) : c.toLower.toNat = c.toNat + 32 := by
  obtain ⟨hfirst, hlast⟩ := isUpper_iff.1 h
  have hrange : 'A'.val ≤ c.val ∧ c.val ≤ 'Z'.val := ⟨hfirst, hlast⟩
  have hlower : c.toLower = _ := dif_pos hrange
  rw [hlower]
  show (c.val + 32).toNat = c.toNat + 32
  rw [UInt32.toNat_add]
  show (c.toNat + 32) % 2 ^ 32 = c.toNat + 32
  omega

theorem toLower_of_not_isUpper (h : c.isUpper = false) : c.toLower = c := by
  refine dif_neg fun hrange => ?_
  rw [isUpper_iff.2 hrange] at h
  cases h

theorem lowerAscii_eq (c : Char) : lowerAscii c = c.toLower := by
  have hrange : ('A' ≤ c && c ≤ 'Z') = true ↔ c.isUpper = true := by
    rw [isUpper_iff, Bool.and_eq_true, decide_eq_true_eq, decide_eq_true_eq]
    rfl
  unfold lowerAscii
  split
  · next h =>
    have hupper := hrange.1 h
    have hlast := (isUpper_iff.1 hupper).2
    have hvalid : (c.toNat + 32).isValidChar := Or.inl (by omega)
    rw [Char.ofNat, dif_pos hvalid]
    apply Char.ext
    apply UInt32.toNat_inj.1
    exact (toNat_toLower hupper).symm
  · next h => exact (toLower_of_not_isUpper (Bool.eq_false_iff.2 fun hu => h (hrange.2 hu))).symm

/-- Only a capital is changed, and into a small letter. -/
theorem toLower_cases (c : Char) :
    c.isUpper = true ∧ c.toLower.isLower = true ∨ c.isUpper = false ∧ c.toLower = c := by
  cases hupper : c.isUpper with
  | false => exact .inr ⟨rfl, toLower_of_not_isUpper hupper⟩
  | true =>
    obtain ⟨hfirst, hlast⟩ := isUpper_iff.1 hupper
    refine .inl ⟨rfl, isLower_iff.2 ?_⟩
    rw [toNat_toLower hupper]
    omega

theorem eq_of_toLower (hd : d.isLower = false) (h : c.toLower = d) : c = d := by
  rcases toLower_cases c with ⟨-, hlow⟩ | ⟨-, hsame⟩
  · rw [h, hd] at hlow
    cases hlow
  · exact hsame.symm.trans h

end RecipeFlow.Text
