import RecipeFlow.Proofs.Compile.Script
import RecipeFlow.Proofs.Files.Resolve

/-! Scripts that name directories: which ones are tested for, removed and made. -/
namespace RecipeFlow.Shell

variable {path p : String}

/-- The directory that a script begins with testing for. -/
def tested? (script : String) : Option String := do
  let cs ← script.toList.dropPrefix? "test -d ".toList
  let (path, _) ← readWord .bare cs
  return String.ofList path

/-- The directory that a script ends with removing. -/
def cleaned? (script : String) : Option String := do
  let last := (script.toList.reverse.takeWhile (· ≠ '&')).reverse
  let cs ← last.dropPrefix? " rm -rf ".toList
  let (path, _) ← readWord .bare cs
  return String.ofList path

theorem cleaned?_append (script : String) (h : IsPlain path) :
    cleaned? (script ++ " && rm -rf " ++ path) = some path := by
  have hchars : (script ++ " && rm -rf " ++ path).toList.reverse =
      (" rm -rf ".toList ++ path.toList).reverse ++
        '&' :: ('&' :: ' ' :: script.toList.reverse) := by
    have hjoin : " && rm -rf ".toList = ' ' :: '&' :: '&' :: " rm -rf ".toList := rfl
    simp only [String.toList_append, hjoin, List.reverse_append, List.reverse_cons,
      List.append_assoc, List.cons_append, List.nil_append]
  have hbare : ∀ c ∈ (" rm -rf ".toList ++ path.toList).reverse, decide (c ≠ '&') = true := by
    intro c hc
    rw [List.mem_reverse, List.mem_append] at hc
    rw [decide_eq_true_eq]
    rintro rfl
    exact hc.elim (by decide) fun hmem => by cases h '&' hmem
  have hword : readWord .bare path.toList = some (path.toList, []) := by
    simpa using @readWord_plain _ [] h nofun
  rw [cleaned?, hchars, List.takeWhile_append_of_pos hbare,
    List.takeWhile_cons_of_neg (by decide), List.append_nil, List.reverse_reverse,
    ShellWorkflow.dropPrefix?_append, Option.bind_eq_bind, Option.bind_some, hword]
  simp

/-- The directory that a script begins with removing, and the one that it makes then. -/
def renewed? (script : String) : Option (String × String) := do
  let cs ← script.toList.dropPrefix? "rm -rf ".toList
  let (removed, cs) ← readWord .bare cs
  let cs ← cs.dropPrefix? " && mkdir -p ".toList
  let (made, _) ← readWord .bare cs
  return (String.ofList removed, String.ofList made)

/-- The directories that lines of a script make, and the file that is written then. -/
def staged? : List (List Char) → Option (List String × String)
  | [] => none
  | l :: ls =>
    match l.dropPrefix? "mkdir -p ".toList with
    | some cs => do
      let (dir, _) ← readWord .bare cs
      let (dirs, file) ← staged? ls
      return (String.ofList dir :: dirs, file)
    | none => do
      let cs ← l.dropPrefix? "cat > ".toList
      let (file, _) ← readWord .bare cs
      return ([], String.ofList file)

/-- The line of a script that makes a directory and goes on. -/
def makingLine (dir : String) : String :=
  "mkdir -p " ++ dir ++ " && \\"

/-- The line of a script that writes a file from the lines behind it. -/
def writingLine (file : String) : String :=
  "cat > " ++ file ++ " << 'EOF'"

theorem newline_notMem (h : IsPlain p) : '\n' ∉ p.toList := by
  intro hmem
  cases h '\n' hmem

theorem newline_notMem_makingLine (h : IsPlain p) : '\n' ∉ (makingLine p).toList := by
  simp only [makingLine, String.toList_append, List.mem_append, not_or]
  exact ⟨⟨by decide, newline_notMem h⟩, by decide⟩

theorem newline_notMem_writingLine (h : IsPlain p) : '\n' ∉ (writingLine p).toList := by
  simp only [writingLine, String.toList_append, List.mem_append, not_or]
  exact ⟨⟨by decide, newline_notMem h⟩, by decide⟩

theorem split_line {l cs : List Char} (h : '\n' ∉ l) :
    Text.split '\n' (l ++ '\n' :: cs) = l :: Text.split '\n' cs := by
  rw [Text.split, Text.splitFrom_append, Text.splitFrom_of_notMem h]
  rfl

theorem split_makingLines {dirs : List String} {cs : List Char} (h : ∀ d ∈ dirs, IsPlain d) :
    Text.split '\n' (dirs.flatMap (fun d => (makingLine d).toList ++ ['\n']) ++ cs) =
      dirs.map (fun d => (makingLine d).toList) ++ Text.split '\n' cs := by
  induction dirs with
  | nil => rfl
  | cons d dirs ih =>
    obtain ⟨hd, hdirs⟩ := List.forall_mem_cons.1 h
    rw [List.flatMap_cons, List.append_assoc, List.append_assoc, List.singleton_append,
      split_line (newline_notMem_makingLine hd), ih hdirs]
    rfl

/-- Lines that make directories and one that writes a file are read back. -/
theorem staged?_lines {dirs : List String} {file : String} {ls : List (List Char)}
    (hdirs : ∀ d ∈ dirs, IsPlain d) (hfile : IsPlain file) :
    staged? (dirs.map (fun d => (makingLine d).toList) ++ (writingLine file).toList :: ls) =
      some (dirs, file) := by
  induction dirs with
  | nil =>
    obtain ⟨cs, hcs⟩ : ∃ cs, (writingLine file).toList =
        "cat > ".toList ++ (file.toList ++ ' ' :: cs) := by
      simp only [writingLine, String.toList_append, List.append_assoc]
      exact ⟨_, rfl⟩
    have hnone : ("cat > ".toList ++ (file.toList ++ ' ' :: cs)).dropPrefix? "mkdir -p ".toList =
        none := rfl
    rw [List.map_nil, List.nil_append, staged?, hcs, hnone]
    simp only [ShellWorkflow.dropPrefix?_append, Option.bind_eq_bind, Option.bind_some,
      readWord_plain hfile (ends_blank cs), Option.pure_def, String.ofList_toList]
  | cons d dirs ih =>
    obtain ⟨hd, hdirs⟩ := List.forall_mem_cons.1 hdirs
    obtain ⟨cs, hcs⟩ : ∃ cs, (makingLine d).toList =
        "mkdir -p ".toList ++ (d.toList ++ ' ' :: cs) := by
      simp only [makingLine, String.toList_append, List.append_assoc]
      exact ⟨_, rfl⟩
    rw [List.map_cons, List.cons_append, staged?, hcs, ShellWorkflow.dropPrefix?_append]
    simp only [Option.bind_eq_bind, Option.bind_some, readWord_plain hd (ends_blank cs),
      ih hdirs, Option.pure_def, String.ofList_toList]

end RecipeFlow.Shell
