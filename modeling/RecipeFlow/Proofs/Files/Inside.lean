import RecipeFlow.Proofs.Files.Resolve

/-! References from a directory: how far up they lead, which names they lead down to, and whether
that lies inside the directory. -/
namespace RecipeFlow.Files

variable {cwd place parts : List String} {dir name path part p q : String}

/-- A path that starts at the root. -/
def IsRooted (path : String) : Prop :=
  path.toList.head? = some '/'

instance : Decidable (IsRooted path) :=
  inferInstanceAs (Decidable (_ = _))

/-- The names on the way from the root to where a path leads. A path that is not rooted starts in
the working directory. -/
def resolveFrom (cwd : List String) (path : String) : List String :=
  (FileTree.components path).foldl enter (if IsRooted path then [] else cwd)

/-- A path leads to something that lies in a directory, and is not the directory itself. -/
def Inside (cwd : List String) (dir path : String) : Prop :=
  resolveFrom cwd dir <+: resolveFrom cwd path ∧ resolveFrom cwd path ≠ resolveFrom cwd dir

/-- How many directories a path leads up, and which names it leads down to from there. -/
structure Course where
  up : Nat
  down : List String
  deriving DecidableEq, Repr

namespace Course

/-- Two dots take back the last name, and lead up where there is none. -/
def enter (c : Course) (part : String) : Course :=
  if part = "" ∨ part = "." then c
  else if part = ".." then
    if c.down = [] then ⟨c.up + 1, []⟩ else ⟨c.up, c.down.dropLast⟩
  else ⟨c.up, c.down ++ [part]⟩

/-- The place that a course leads to from another one. The root is as far up as it gets. -/
def target (c : Course) (place : List String) : List String :=
  place.take (place.length - c.up) ++ c.down

/-- A course leads below the place it starts from if the names that it leads down to are those that
it has left, and others behind them. -/
def Descends (c : Course) (place : List String) : Prop :=
  place.drop (place.length - c.up) <+: c.down ∧ c.down ≠ place.drop (place.length - c.up)

end Course

/-- The course of a path that is not rooted, wherever it starts. -/
def course (path : String) : Course :=
  (FileTree.components path).foldl Course.enter ⟨0, []⟩

/-- A name, seen from a place, stands for something that lies below the place. -/
def LeadsInside (place : List String) (name : String) : Prop :=
  if IsRooted name then place <+: resolve name ∧ resolve name ≠ place
  else (course name).Descends place

/-- A name that never leads out of where it is used, and does not end there. -/
structure IsSheltered (name : String) : Prop where
  unrooted : ¬ IsRooted name
  within : (course name).up = 0
  below : (course name).down ≠ []

namespace Course

variable {c : Course}

theorem enter_target : Files.enter (c.target place) part = (c.enter part).target place := by
  unfold Files.enter enter
  split
  · rfl
  · split
    · split
      · next hdown =>
        -- One name less of the place, or none where none is left.
        rw [target, target, hdown, List.append_nil, List.append_nil, List.dropLast_eq_take,
          List.take_take, List.length_take]
        congr 1
        dsimp only
        omega
      · next hdown => exact List.dropLast_append_of_ne_nil hdown
    · exact List.append_assoc _ _ _

theorem foldl_enter_target :
    parts.foldl Files.enter (c.target place) = (parts.foldl enter c).target place := by
  induction parts generalizing c with
  | nil => rfl
  | cons part parts ih => rw [List.foldl_cons, List.foldl_cons, enter_target, ih]

theorem target_self : (⟨0, []⟩ : Course).target place = place := by
  simp [target]

/-- Where a course leads lies below its start just if it descends. -/
theorem descends_iff :
    c.Descends place ↔ place <+: c.target place ∧ c.target place ≠ place := by
  -- What is kept of the place is in front on both sides.
  have hcancel : ∀ front left : List String, front ++ left = place →
      ((place <+: front ++ c.down ↔ left <+: c.down) ∧
        (front ++ c.down = place ↔ c.down = left)) := by
    rintro front left rfl
    exact ⟨List.prefix_append_right_inj front, List.append_right_inj front⟩
  obtain ⟨hbelow, heq⟩ := hcancel _ _ (List.take_append_drop (place.length - c.up) place)
  rw [Descends, target, hbelow, Ne, Ne, heq]

end Course

theorem foldl_enter (name : String) (place : List String) :
    (FileTree.components name).foldl enter place = (course name).target place := by
  have hstart : (FileTree.components name).foldl enter ((⟨0, []⟩ : Course).target place) =
      (course name).target place := Course.foldl_enter_target
  rwa [Course.target_self] at hstart

theorem resolveFrom_rooted (h : IsRooted path) : resolveFrom cwd path = resolve path := by
  rw [resolveFrom, if_pos h, resolve]

theorem isRooted_append (h : p ≠ "") : IsRooted (p ++ q) ↔ IsRooted p := by
  obtain ⟨c, cs, hp⟩ : ∃ c cs, p.toList = c :: cs :=
    List.exists_cons_of_ne_nil (by simpa using h)
  rw [IsRooted, IsRooted, String.toList_append, hp]
  rfl

theorem components_slash : FileTree.components (p ++ "/") = FileTree.components p ++ [""] := by
  have hempty : p ++ "/" = p ++ "/" ++ "" := String.append_empty.symm
  have hnone : FileTree.components "" = [""] := rfl
  rw [hempty, FileTree.components_append, hnone]

/-- A slash at the end of a directory changes nothing, unless there is nothing before it. -/
theorem resolveFrom_slash (h : p ≠ "") : resolveFrom cwd (p ++ "/") = resolveFrom cwd p := by
  simp only [resolveFrom, isRooted_append h, components_slash, List.foldl_append]
  rfl

theorem resolveFrom_below :
    resolveFrom cwd (p ++ "/" ++ q) = (course q).target (resolveFrom cwd (p ++ "/")) := by
  have hrooted : IsRooted (p ++ "/" ++ q) ↔ IsRooted (p ++ "/") := isRooted_append (by simp)
  simp only [resolveFrom, hrooted, FileTree.components_append, components_slash, List.foldl_append,
    foldl_enter]
  rfl

/-- A name that is not rooted leads on from the directory. -/
theorem resolveFrom_join (h : ¬ IsRooted name) :
    resolveFrom cwd (join dir name) = (course name).target (resolveFrom cwd dir) := by
  have hhead : name.toList.head? ≠ some '/' := h
  by_cases hdir : dir = ""
  · have hcwd : resolveFrom cwd "" = cwd := rfl
    rw [hdir, hcwd, join, if_pos (by simp), resolveFrom, if_neg h, foldl_enter]
  · rw [join, if_neg (by simp [hhead, hdir])]
    split
    · next hlast =>
      obtain ⟨cs, hcs⟩ := List.getLast?_eq_some_iff.1 hlast
      obtain rfl : dir = String.ofList cs ++ "/" := String.toList_injective (by simpa using hcs)
      exact resolveFrom_below
    · rw [resolveFrom_below, resolveFrom_slash hdir]

/-- A name that a directory refers to is found inside it just if it leads inside. -/
theorem inside_join_iff :
    Inside cwd dir (join dir name) ↔ LeadsInside (resolveFrom cwd dir) name := by
  unfold LeadsInside
  split
  · next h =>
    have hjoin : join dir name = name := if_pos (by simp [show name.toList.head? = some '/' from h])
    rw [Inside, hjoin, resolveFrom_rooted h]
  · next h => rw [Inside, resolveFrom_join h, Course.descends_iff]

/-- The sheltered names are those that lead inside from wherever they are used. -/
theorem isSheltered_iff : IsSheltered name ↔ ∀ place, LeadsInside place name := by
  constructor
  · intro h place
    have hnone : place.drop (place.length - (course name).up) = [] := by
      rw [h.within, Nat.sub_zero, List.drop_length]
    rw [LeadsInside, if_neg h.unrooted, Course.Descends, hnone]
    exact ⟨List.nil_prefix, h.below⟩
  · intro h
    have hrooted : ¬ IsRooted name := by
      intro hrooted
      have hself := h (resolve name)
      rw [LeadsInside, if_pos hrooted] at hself
      exact hself.2 rfl
    have hdescends : ∀ place, (course name).Descends place := by
      intro place
      have hplace := h place
      rwa [LeadsInside, if_neg hrooted] at hplace
    refine ⟨hrooted, ?_, ?_⟩
    · refine Nat.eq_zero_of_not_pos fun hup => ?_
      -- A directory of another name than the one that it leads down to is left for good.
      obtain ⟨x, hx⟩ : ∃ x : String, (course name).down.head? ≠ some x := by
        by_cases hhead : (course name).down.head? = some ""
        · exact ⟨".", by simp [hhead]⟩
        · exact ⟨"", hhead⟩
      have hleft : [x].drop ([x].length - (course name).up) = [x] := by
        have hlength : [x].length - (course name).up = 0 := by
          rw [List.length_singleton]
          omega
        rw [hlength, List.drop_zero]
      obtain ⟨rest, hrest⟩ := (hdescends [x]).1
      rw [hleft] at hrest
      exact hx (by rw [← hrest]; rfl)
    · simpa [Course.Descends] using hdescends []

end RecipeFlow.Files
