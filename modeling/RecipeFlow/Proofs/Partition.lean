import Mathlib.Algebra.Order.Floor.Div
import RecipeFlow.Partition
import RecipeFlow.Table

/-! Partition plans: each file stands in one partition, at the place that its position says. -/
namespace RecipeFlow.Partition

variable {α : Type} {size fuel s i : Nat} {xs : List α} {files : List String} {function : String}
  {p : Partition}

theorem one_le_clamp (size : Int) : 1 ≤ clamp size := by
  unfold clamp
  omega

/-- The groups of a list are its first items and the groups of the others. -/
theorem chunks_of_ne_nil (h : xs ≠ []) :
    chunks size (fuel + 1) xs = xs.take size :: chunks size fuel (xs.drop size) := by
  cases xs with
  | nil => exact absurd rfl h
  | cons x xs => rfl

theorem length_drop_le (hsize : 1 ≤ size) (hfuel : xs.length ≤ fuel + 1) :
    (xs.drop size).length ≤ fuel := by
  rw [List.length_drop]
  omega

/-- Put together again, the groups are the list that was split. -/
theorem flatten_chunks (hsize : 1 ≤ size) (hfuel : xs.length ≤ fuel) :
    (chunks size fuel xs).flatten = xs := by
  induction fuel generalizing xs with
  | zero =>
    have hnil : xs = [] := List.length_eq_zero_iff.1 (by omega)
    subst hnil
    rfl
  | succ fuel ih =>
    by_cases hnil : xs = []
    · subst hnil
      rfl
    · have hrest := length_drop_le hsize hfuel
      rw [chunks_of_ne_nil hnil, List.flatten_cons, ih hrest, List.take_append_drop]

/-- The group at a position is the part of the list that starts so many groups behind its
beginning. -/
theorem getElem?_chunks (hsize : 1 ≤ size) (hfuel : xs.length ≤ fuel) (i : Nat) :
    (chunks size fuel xs)[i]? =
      if i * size < xs.length then some ((xs.drop (i * size)).take size) else none := by
  induction fuel generalizing xs i with
  | zero =>
    have hlen : ¬ i * size < xs.length := by omega
    rw [if_neg hlen]
    rfl
  | succ fuel ih =>
    by_cases hnil : xs = []
    · subst hnil
      have hlen : ¬ i * size < ([] : List α).length := Nat.not_lt_zero _
      rw [if_neg hlen]
      rfl
    · rw [chunks_of_ne_nil hnil]
      cases i with
      | zero =>
        have hpos : 0 * size < xs.length := by
          rw [Nat.zero_mul]
          exact List.length_pos_iff.2 hnil
        rw [if_pos hpos, Nat.zero_mul, List.drop_zero]
        rfl
      | succ i =>
        have hstart : (i + 1) * size = i * size + size := Nat.succ_mul i size
        have hlen : i * size < (xs.drop size).length ↔ (i + 1) * size < xs.length := by
          rw [List.length_drop, hstart]
          omega
        have hdrop : (xs.drop size).drop (i * size) = xs.drop ((i + 1) * size) := by
          rw [List.drop_drop, hstart, Nat.add_comm]
        rw [List.getElem?_cons_succ, ih (length_drop_le hsize hfuel), hdrop]
        simp only [hlen]

/-- There are as many groups as it takes to hold all. -/
theorem length_chunks (hsize : 1 ≤ size) (hfuel : xs.length ≤ fuel) :
    (chunks size fuel xs).length = xs.length ⌈/⌉ size := by
  -- A position has a group if and only if it is below the quotient.
  have hpos : ∀ i, i < (chunks size fuel xs).length ↔ i < xs.length ⌈/⌉ size := by
    intro i
    have hget := getElem?_chunks hsize hfuel i
    have hdiv : i < xs.length ⌈/⌉ size ↔ i * size < xs.length := by
      rw [← not_le, ← not_le, Nat.mul_comm]
      exact not_congr (ceilDiv_le_iff_le_mul hsize)
    rw [hdiv]
    by_cases hi : i * size < xs.length
    · rw [if_pos hi] at hget
      exact ⟨fun _ => hi, fun _ => (List.getElem?_eq_some_iff.1 hget).1⟩
    · rw [if_neg hi] at hget
      have hle := List.getElem?_eq_none_iff.1 hget
      exact ⟨fun hlt => absurd hlt (Nat.not_lt.2 hle), fun hlt => absurd hlt hi⟩
  have hle := (hpos (xs.length ⌈/⌉ size)).not.2 (Nat.lt_irrefl _)
  have hge := (hpos (chunks size fuel xs).length).not.1 (Nat.lt_irrefl _)
  omega

theorem mem_of_mem_chunks {c : List α} (h : c ∈ chunks size fuel xs) : ∀ x ∈ c, x ∈ xs := by
  induction fuel generalizing xs with
  | zero => cases h
  | succ fuel ih =>
    cases xs with
    | nil => cases h
    | cons y ys =>
      rw [chunks, List.mem_cons] at h
      intro x hx
      rcases h with rfl | h
      · exact List.mem_of_mem_take hx
      · exact List.mem_of_mem_drop (ih h x hx)

/-- No group is empty. -/
theorem ne_nil_of_mem_chunks {c : List α} (hsize : 1 ≤ size) (h : c ∈ chunks size fuel xs) :
    c ≠ [] := by
  induction fuel generalizing xs with
  | zero => cases h
  | succ fuel ih =>
    cases xs with
    | nil => cases h
    | cons y ys =>
      rw [chunks, List.mem_cons] at h
      rcases h with rfl | h
      · simpa using Nat.ne_of_gt hsize
      · exact ih h

/-- A plan of partitions that hold so many files each. -/
structure IsPlan (files : List String) (s : Nat) (function : String) (ps : List Partition) :
    Prop where
  /-- One after the other the partitions hold the files, in their order. -/
  all : ps.flatMap Partition.files = files
  /-- They are numbered from zero on. -/
  numbered : ps.map Partition.number = List.range ps.length
  /-- None is empty. -/
  nonempty : ∀ p ∈ ps, p.files ≠ []
  bounded : ∀ p ∈ ps, p.files.length ≤ s
  /-- Only the last may hold fewer. -/
  full : ∀ p ∈ ps.dropLast, p.files.length = s
  /-- The files of the one at a position stand together, that many groups behind the beginning. -/
  placed : ∀ i p, ps[i]? = some p → p.files = files.extract (i * s) ((i + 1) * s)
  /-- Each says how many files it holds and which stage they are for. -/
  described : ∀ p ∈ ps, Table.find? "num_files" p.counts = some p.files.length ∧
    p.function = function
  /-- There are as many as it takes. -/
  covers : ps.length = files.length ⌈/⌉ s

/-- The partitions that a list is cut into. -/
def cut (files : List String) (s : Nat) (function : String) : List Partition :=
  (chunks s files.length files).mapIdx (ofChunk function)

theorem getElem?_cut (hs : 1 ≤ s) : (cut files s function)[i]? =
    if i * s < files.length then some (ofChunk function i ((files.drop (i * s)).take s))
    else none := by
  rw [cut, List.getElem?_mapIdx, getElem?_chunks hs (Nat.le_refl _)]
  split
  · rfl
  · rfl

/-- Where the partition at a position has its files from, and that there are some. -/
theorem of_getElem?_cut (hs : 1 ≤ s) (h : (cut files s function)[i]? = some p) :
    i * s < files.length ∧ p = ofChunk function i ((files.drop (i * s)).take s) := by
  rw [getElem?_cut hs] at h
  split at h
  · next hi => exact ⟨hi, (Option.some.inj h).symm⟩
  · cases h

theorem flatMap_files_cut (hs : 1 ≤ s) :
    (cut files s function).flatMap Partition.files = files := by
  have hfiles : (cut files s function).map Partition.files = chunks s files.length files := by
    apply List.ext_getElem
    · simp [cut]
    · simp [cut, ofChunk]
  rw [List.flatMap, hfiles]
  exact flatten_chunks hs (Nat.le_refl _)

/-- A partition that another one follows is full. -/
theorem length_files_cut (hs : 1 ≤ s) (h : (cut files s function)[i]? = some p)
    (hnext : i + 1 < (cut files s function).length) : p.files.length = s := by
  obtain ⟨-, rfl⟩ := of_getElem?_cut hs h
  have hend : (i + 1) * s < files.length := by
    by_contra hend
    have hnone := @getElem?_cut s (i + 1) files function hs
    rw [if_neg hend, List.getElem?_eq_none_iff] at hnone
    omega
  have hstart : (i + 1) * s = i * s + s := Nat.succ_mul i s
  show ((files.drop (i * s)).take s).length = s
  rw [List.length_take, List.length_drop]
  omega

theorem isPlan_cut (hs : 1 ≤ s) : IsPlan files s function (cut files s function) := by
  have hmem : ∀ p ∈ cut files s function, ∃ i, i * s < files.length ∧
      p = ofChunk function i ((files.drop (i * s)).take s) := by
    intro p hp
    obtain ⟨i, hi⟩ := List.mem_iff_getElem?.1 hp
    exact ⟨i, of_getElem?_cut hs hi⟩
  constructor
  · exact flatMap_files_cut hs
  · apply List.ext_getElem
    · simp
    · simp [cut, ofChunk]
  · intro p hp
    obtain ⟨i, hi, rfl⟩ := hmem p hp
    have hpos : 0 < ((files.drop (i * s)).take s).length := by
      rw [List.length_take, List.length_drop]
      omega
    exact List.length_pos_iff.1 hpos
  · intro p hp
    obtain ⟨i, -, rfl⟩ := hmem p hp
    exact List.length_take_le _ _
  · intro p hp
    obtain ⟨i, hi⟩ := List.mem_iff_getElem?.1 hp
    rw [List.getElem?_dropLast] at hi
    split at hi
    · next hlast => exact length_files_cut hs hi (by omega)
    · cases hi
  · intro i p hp
    obtain ⟨-, rfl⟩ := of_getElem?_cut hs hp
    have hwidth : (i + 1) * s - i * s = s := by
      rw [Nat.succ_mul]
      omega
    show (files.drop (i * s)).take s = _
    rw [List.extract_eq_take_drop, hwidth]
  · intro p hp
    obtain ⟨i, -, rfl⟩ := hmem p hp
    exact ⟨rfl, rfl⟩
  · rw [cut, List.length_mapIdx, length_chunks hs (Nat.le_refl _)]

theorem count_eq_ceilDiv (n : Nat) (size : Int) : count n size = n ⌈/⌉ clamp size :=
  (Nat.ceilDiv_eq_add_pred_div n (clamp size)).symm

theorem plan_of_ne_nil (h : files ≠ []) (size : Int) (function : String) :
    plan files size function = .ok (cut files (clamp size) function) := by
  rw [plan, if_neg (by simpa using h)]
  rfl

/-- Just the lists with a file in them have plans, one for each size, where a size below one counts
as one. -/
theorem exists_isPlan_iff (files : List String) (size : Int) (function : String) :
    (files ≠ [] ↔ ∃ ps, plan files size function = .ok ps ∧
      IsPlan files (max size 1).toNat function ps ∧ ps.length = count files.length size) ∧
    ∀ f, plan files size function = .error f ↔ files = [] ∧
      f = .invalid 3002 ("No files provided for execution function '" ++ function ++ "'") none := by
  by_cases hnil : files = []
  · subst hnil
    refine ⟨⟨fun h => absurd rfl h, ?_⟩, ?_⟩
    · rintro ⟨ps, hps, -⟩
      cases hps
    · intro f
      constructor
      · intro h
        cases h
        exact ⟨rfl, rfl⟩
      · rintro ⟨-, rfl⟩
        rfl
  · have hplan := plan_of_ne_nil hnil size function
    have hcut : IsPlan files (clamp size) function (cut files (clamp size) function) :=
      isPlan_cut (one_le_clamp size)
    refine ⟨⟨fun _ => ⟨_, hplan, hcut, ?_⟩, fun _ => hnil⟩, ?_⟩
    · rw [hcut.covers, count_eq_ceilDiv]
    · intro f
      rw [hplan]
      exact ⟨nofun, fun h => absurd h.1 hnil⟩

example : (plan ["a", "b", "c", "d", "e"] 2 "process-0").map (·.map Partition.files) =
    .ok [["a", "b"], ["c", "d"], ["e"]] := by decide

end RecipeFlow.Partition
