import RecipeFlow.Proofs.Schema.Record
import RecipeFlow.Proofs.Text.Digits

/-! Whole numbers: what their decimal digits are read as, and which of them have a minus sign. -/
namespace RecipeFlow

variable {n : Nat} {i : Int} {c : Char} {cs : List Char}

namespace Yaml

open Text

theorem isPadded_toDigits (n : Nat) : isPadded (Nat.toDigits 10 n) = false := by
  rcases Nat.eq_zero_or_pos n with rfl | hpos
  · rfl
  · have hhead := head?_toDigits hpos
    unfold isPadded
    split
    · next heq => simp [heq] at hhead
    · rfl

theorem based?_of_isDigit (h : ∀ c ∈ cs, isDigit c = true) : based? cs = none := by
  unfold based?
  split
  · exact absurd (h 'x' (by simp)) (by decide)
  · exact absurd (h 'o' (by simp)) (by decide)
  · exact absurd (h 'b' (by simp)) (by decide)
  · rfl

theorem magnitude?_toDigits (n : Nat) : magnitude? (Nat.toDigits 10 n) = some n := by
  rw [magnitude?, based?_of_isDigit fun c => isDigit_of_mem_toDigits, isPadded_toDigits,
    digits?_toDigits]
  rfl

theorem whole?_toDigits (h : n < Nat.pow 2 64) :
    whole? (Nat.toDigits 10 n) = some (.natural n) := by
  have hdigit : ∀ c ∈ Nat.toDigits 10 n, isDigit c = true :=
    fun c => isDigit_of_mem_toDigits
  unfold whole?
  split
  · next r heq => exact absurd (hdigit '-' (by simp [heq])) (by decide)
  · rw [if_neg fun hplus => absurd (hdigit '+' (List.mem_of_head? hplus)) (by decide),
      magnitude?_toDigits]
    exact if_pos h

theorem whole?_neg (h : n ≤ Nat.pow 2 63) :
    whole? ('-' :: Nat.toDigits 10 n) = some (.signed (-(n : Int))) := by
  rw [whole?, magnitude?_toDigits]
  exact if_pos (by omega)

/-- A whole number with a minus sign is none above zero, and 64 bits hold it. -/
theorem signed_of_whole? (h : whole? cs = some (.signed i)) : -(Nat.pow 2 63) ≤ i ∧ i ≤ 0 := by
  unfold whole? at h
  split at h
  · obtain ⟨m, -, h⟩ := Option.bind_eq_some_iff.1 h
    dsimp only at h
    split at h
    · next hle =>
      cases h
      omega
    · split at h <;> cases h
  · obtain ⟨m, -, h⟩ := Option.bind_eq_some_iff.1 h
    split at h
    · cases h
    · split at h <;> cases h

theorem plainAtom_eq_signed {s : String} (h : plainAtom s = .signed i) :
    whole? s.toList = some (.signed i) := by
  unfold plainAtom at h
  grind

theorem atom_eq_signed {s : Scalar} (h : s.atom = .ok (.signed i)) :
    whole? s.text.toList = some (.signed i) := by
  simp only [Scalar.atom] at h
  grind [plainAtom_eq_signed, Option.map_eq_some_iff]

theorem Node.signed_of_tree {n : Node} (h : n.tree = .ok (.atom (.signed i))) :
    -(Nat.pow 2 63) ≤ i ∧ i ≤ 0 := by
  obtain ⟨s, rfl⟩ := scalar_of_tree h
  exact signed_of_whole? (atom_eq_signed (atom_of_tree h))

end Yaml

end RecipeFlow
