import RecipeFlow.Proofs.Text.Split
import RecipeFlow.Proofs.Url.Segments

/-! Paths segment by segment: where one is after some segments, and which of them are still in the
path then. -/
namespace RecipeFlow.Url

open Text

variable {s xs : List Char} {rev ss ts : List (List Char)}

/-- A path, held in reverse, behind one more segment that is not its last. -/
def enter (rev : List (List Char)) (s : List Char) : List (List Char) :=
  if dots s = 2 then rev.tail else if dots s = 1 then rev else s :: rev

/-- A path, held in reverse, behind some more segments that are not its last. -/
def walk (rev ss : List (List Char)) : List (List Char) :=
  ss.foldl enter rev

/-- A path, held in reverse, behind its last segment: behind dots it ends in a slash. -/
def finish (rev : List (List Char)) (s : List Char) : List (List Char) :=
  if dots s = 0 then s :: rev else [] :: enter rev s

theorem enter_of_undotted (h : dots s = 0) : enter rev s = s :: rev := by
  rw [enter, h, if_neg (by decide), if_neg (by decide)]

theorem enter_up (h : dots s = 2) : enter rev s = rev.tail :=
  if_pos h

theorem enter_stay (h : dots s = 1) : enter rev s = rev := by
  rw [enter, h, if_neg (by decide), if_pos rfl]

theorem finish_of_undotted (h : dots s = 0) : finish rev s = s :: rev :=
  if_pos h

/-- A path ends where its last segment leads to, with or without a slash. -/
theorem finish_eq_enter (rev : List (List Char)) (s : List Char) :
    finish rev s = enter rev s ∨ finish rev s = [] :: enter rev s := by
  by_cases h : dots s = 0
  · rw [finish_of_undotted h, enter_of_undotted h]
    exact .inl rfl
  · exact .inr (if_neg h)

theorem shorten_false : shorten false rev = rev.tail := by
  unfold shorten
  split <;> rfl

theorem appendSegments_cons_cons (s t : List Char) :
    appendSegments false rev (s :: t :: ss) = appendSegments false (enter rev s) (t :: ss) := by
  rw [appendSegments]
  simp only [List.isEmpty_cons, Bool.false_eq_true, if_false, Bool.false_and, shorten_false]
  split
  · next h => rw [enter_up h]
  · next h => rw [enter_stay h]
  · next hup hstay => rw [enter, if_neg hup, if_neg hstay]

theorem appendSegments_singleton (s : List Char) :
    appendSegments false rev [s] = (finish rev s).reverse := by
  have hle := dots_le_two s
  rw [appendSegments]
  simp only [List.isEmpty_nil, if_true, Bool.false_and, Bool.false_eq_true, if_false,
    shorten_false]
  split
  · next h => rw [finish, if_neg (by omega), enter_up h, appendSegments]
  · next h => rw [finish, if_neg (by omega), enter_stay h, appendSegments]
  · next hup hstay =>
    have hup : dots s ≠ 2 := hup
    have hstay : dots s ≠ 1 := hstay
    rw [finish_of_undotted (by omega), appendSegments]

/-- A path is walked up to its last segment. -/
theorem appendSegments_concat (ss : List (List Char)) (s : List Char) :
    appendSegments false rev (ss ++ [s]) = (finish (walk rev ss) s).reverse := by
  induction ss generalizing rev with
  | nil => exact appendSegments_singleton s
  | cons t ss ih =>
    obtain ⟨u, us, hus⟩ := List.exists_cons_of_ne_nil
      (List.append_ne_nil_of_right_ne_nil ss (List.cons_ne_nil s []))
    rw [List.cons_append, hus, appendSegments_cons_cons, ← hus, ih]
    rfl

theorem walk_append (rev ss ts : List (List Char)) : walk rev (ss ++ ts) = walk (walk rev ss) ts :=
  List.foldl_append

/-- A path goes on from where its first segments lead to. -/
theorem appendSegments_append (rev ss : List (List Char)) (h : ts ≠ []) :
    appendSegments false rev (ss ++ ts) = appendSegments false (walk rev ss) ts := by
  obtain ⟨us, t, rfl⟩ : ∃ us t, ts = us ++ [t] := ⟨_, _, (List.dropLast_append_getLast h).symm⟩
  rw [← List.append_assoc, appendSegments_concat, appendSegments_concat, walk_append]

/-- Where no segment is dots, all are in the path. -/
theorem walk_of_undotted (h : ∀ s ∈ ss, dots s = 0) : walk rev ss = ss.reverse ++ rev := by
  induction ss generalizing rev with
  | nil => rfl
  | cons s ss ih =>
    obtain ⟨hs, hss⟩ := List.forall_mem_cons.1 h
    have hstep : walk rev (s :: ss) = walk (enter rev s) ss := rfl
    rw [hstep, enter_of_undotted hs, ih hss, List.reverse_cons, List.append_assoc]
    rfl

/-- Behind some segments the path is made of some of them and of what is left of the path before. -/
theorem exists_walk_eq (rev ss : List (List Char)) :
    ∃ added n, walk rev ss = added ++ rev.drop n ∧ ∀ s ∈ added, s ∈ ss ∧ dots s = 0 := by
  induction ss generalizing rev with
  | nil => exact ⟨[], 0, rfl, nofun⟩
  | cons s ss ih =>
    obtain ⟨added, n, hwalk, hadded⟩ := ih (enter rev s)
    have hstep : walk rev (s :: ss) = walk (enter rev s) ss := rfl
    have hmore : ∀ t ∈ added, t ∈ s :: ss ∧ dots t = 0 :=
      fun t ht => ⟨List.mem_cons_of_mem _ (hadded t ht).1, (hadded t ht).2⟩
    rw [hstep, hwalk]
    by_cases hs : dots s = 0
    · rw [enter_of_undotted hs]
      cases n with
      | zero =>
        refine ⟨added ++ [s], 0, by simp, ?_⟩
        intro t ht
        rcases List.mem_append.1 ht with ht | ht
        · exact hmore t ht
        · rw [List.mem_singleton.1 ht]
          exact ⟨List.mem_cons_self, hs⟩
      | succ n => exact ⟨added, n, rfl, hmore⟩
    · have hle := dots_le_two s
      by_cases htwo : dots s = 2
      · rw [enter_up htwo, ← List.drop_one, List.drop_drop]
        exact ⟨added, 1 + n, rfl, hmore⟩
      · rw [enter_stay (by omega)]
        exact ⟨added, n, rfl, hmore⟩

/-- A path that has grown by one segment has grown by one of those behind which it is. -/
theorem mem_of_walk_eq_cons (h : walk rev ss = s :: rev) : s ∈ ss ∧ dots s = 0 := by
  obtain ⟨added, n, hwalk, hadded⟩ := exists_walk_eq rev ss
  rw [h] at hwalk
  cases added with
  | nil =>
    have hlength := congrArg List.length hwalk
    simp only [List.nil_append, List.length_cons, List.length_drop] at hlength
    omega
  | cons t added =>
    obtain rfl : s = t := (List.cons.inj hwalk).1
    exact hadded s List.mem_cons_self

/-! Segments of a special locator, in which a backslash is a slash. -/

theorem segmentsOf_append (xs ys : List Char) :
    segmentsOf true (xs ++ '/' :: ys) = segmentsOf true xs ++ segmentsOf true ys := by
  rw [segmentsOf, List.map_append, List.map_cons, show isSlash true '/' = true from rfl, if_pos rfl,
    split, splitFrom_append]
  rfl

theorem map_slash_eq (h : ∀ c ∈ xs, isSlash true c = false) :
    xs.map (fun c => if isSlash true c then '/' else c) = xs := by
  have hfixed : ∀ c ∈ xs, (if isSlash true c then '/' else c) = c := by
    intro c hc
    rw [h c hc, if_neg Bool.false_ne_true]
  exact (List.map_congr_left hfixed).trans (List.map_id _)

theorem segmentsOf_of_plain (h : ∀ c ∈ xs, isSlash true c = false) : segmentsOf true xs = [xs] := by
  have hslash : '/' ∉ xs := fun hmem => by cases h '/' hmem
  rw [segmentsOf, map_slash_eq h, split, splitFrom_of_notMem hslash]
  rfl

theorem segmentsOf_replicate (n : Nat) :
    segmentsOf true (List.replicate n '/') = List.replicate (n + 1) [] := by
  induction n with
  | zero => rfl
  | succ n ih =>
    have hsplit := segmentsOf_append [] (List.replicate n '/')
    rw [List.nil_append, ih] at hsplit
    rw [List.replicate_succ, hsplit]
    rfl

theorem sublist_of_mem_splitFrom {sep : Char} {piece p : List Char}
    (h : p ∈ splitFrom sep piece xs) : p.Sublist (piece.reverse ++ xs) := by
  induction xs generalizing piece with
  | nil =>
    rw [splitFrom, List.mem_singleton] at h
    rw [h, List.append_nil]
  | cons c xs ih =>
    rw [splitFrom] at h
    split at h
    · rcases List.mem_cons.1 h with rfl | h
      · exact List.sublist_append_left _ _
      · exact (ih h).trans ((List.sublist_cons_self c xs).trans (List.sublist_append_right _ _))
    · have hrest := ih h
      rwa [List.reverse_cons, List.append_assoc] at hrest

/-- A segment is part of the text, and holds no slash of either kind. -/
theorem of_mem_segmentsOf (h : s ∈ segmentsOf true xs) :
    s.Sublist xs ∧ ∀ c ∈ s, isSlash true c = false := by
  have hslash : '/' ∉ s := notMem_of_mem_split h
  obtain ⟨t, ht, heq⟩ := List.sublist_map_iff.1 (sublist_of_mem_splitFrom h)
  have hplain : ∀ c ∈ t, isSlash true c = false := by
    intro c hc
    rw [← Bool.not_eq_true]
    intro htrue
    apply hslash
    rw [heq, List.mem_map]
    exact ⟨c, hc, if_pos htrue⟩
  rw [map_slash_eq hplain] at heq
  subst heq
  exact ⟨ht, hplain⟩

theorem segmentsOf_ne_nil (xs : List Char) : segmentsOf true xs ≠ [] := by
  intro h
  have hlength := congrArg List.length h
  rw [segmentsOf, length_split] at hlength
  cases hlength

/-! Paths of special locators. -/

/-- The segments of a text, in the form that they have in a path. -/
def written (xs : List Char) : List (List Char) :=
  (segmentsOf true xs).map (percentEncode pathSet)

/-- The segments of what follows the authority, whose first character separates them from it. -/
def below : List Char → List (List Char)
  | [] => []
  | _ :: xs => written xs

/-- The path of what follows the authority. -/
def pathBelow : List Char → List (List Char)
  | [] => [[]]
  | _ :: xs => pathOf true false xs

theorem pathOf_eq (xs : List Char) :
    pathOf true false xs = appendSegments false [] (written xs) := by
  rw [pathOf, if_neg Bool.false_ne_true]
  rfl

theorem written_append (xs ys : List Char) :
    written (xs ++ '/' :: ys) = written xs ++ written ys := by
  rw [written, segmentsOf_append, List.map_append]
  rfl

/-- Behind a slash the segments go on. -/
theorem pathBelow_append (xs ys : List Char) :
    pathBelow (xs ++ '/' :: ys) = appendSegments false [] (below xs ++ written ys) := by
  cases xs with
  | nil => exact pathOf_eq ys
  | cons c xs =>
    have htail : pathBelow (c :: xs ++ '/' :: ys) = pathOf true false (xs ++ '/' :: ys) := rfl
    rw [htail, pathOf_eq, written_append]
    rfl

theorem written_ne_nil (xs : List Char) : written xs ≠ [] := by
  simpa [written] using segmentsOf_ne_nil xs

theorem exists_written_eq (xs : List Char) : ∃ ss s, written xs = ss ++ [s] :=
  ⟨_, _, (List.dropLast_append_getLast (written_ne_nil xs)).symm⟩

theorem written_replicate (n : Nat) :
    written (List.replicate n '/') = List.replicate n [] ++ [[]] := by
  rw [written, segmentsOf_replicate, List.map_replicate, List.replicate_succ']
  rfl

/-- However many slashes stand at the end of a path, it is where its segments lead to, up to empty
segments at the end. -/
theorem exists_pathBelow_eq (xs : List Char) (n : Nat) : ∃ m,
    pathBelow (xs ++ List.replicate n '/') =
      (walk [] (below xs)).reverse ++ List.replicate m [] := by
  cases n with
  | zero =>
    rw [List.replicate_zero, List.append_nil]
    cases xs with
    | nil => exact ⟨1, rfl⟩
    | cons c xs =>
      obtain ⟨ss, s, hss⟩ := exists_written_eq xs
      have hwalk : walk [] (below (c :: xs)) = enter (walk [] ss) s := by
        rw [below, hss, walk_append]
        rfl
      rw [pathBelow, pathOf_eq, hwalk, hss, appendSegments_concat]
      rcases finish_eq_enter (walk [] ss) s with h | h
      · exact ⟨0, by rw [h, List.replicate_zero, List.append_nil]⟩
      · exact ⟨1, by rw [h, List.reverse_cons, List.replicate_one]⟩
  | succ n =>
    have hempty : ∀ s ∈ List.replicate n ([] : List Char), dots s = 0 := by
      intro s hs
      rw [List.eq_of_mem_replicate hs]
      rfl
    refine ⟨n + 1, ?_⟩
    rw [List.replicate_succ, pathBelow_append, written_replicate, ← List.append_assoc,
      appendSegments_concat, walk_append, walk_of_undotted hempty, finish_of_undotted rfl,
      List.reverse_cons, List.reverse_append, List.reverse_reverse, List.append_assoc,
      ← List.replicate_succ']

end RecipeFlow.Url
