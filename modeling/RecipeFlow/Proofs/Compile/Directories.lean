import RecipeFlow.Proofs.Compile.Layout
import RecipeFlow.Proofs.Compile.Script
import RecipeFlow.Proofs.Recipe.Identifier
import RecipeFlow.Proofs.Shell.Pattern

/-! The directories of a partitioned recipe: which task writes and which reads each of them. -/
namespace RecipeFlow

open Files

/-- The value that a task's container sets a variable to. -/
def Task.env? (t : Task) (key : String) : Option String :=
  t.container.env.find? key

/-- The pattern of the directories that a publishing script gathers. -/
def PublishTask.gathered? (script : String) : Option (List Shell.PatternPart) := do
  let cs ← script.toList.dropPrefix? ("mkdir -p " ++ inputDir ++ " && for d in ").toList
  let (pattern, _) ← Shell.readPattern cs
  return pattern

/-- What a partition's task is told about its place. -/
structure Task.StandsAt (t : Task) (a : PartitionAddress) : Prop where
  name : t.name = a.taskName
  input : t.env? "INPUT_DIR" = some a.inputDir
  output : t.env? "OUTPUT_DIR" = some a.outputDir

variable {r : Recipe} {w : ShellWorkflow} {items : List FetchItem} {publish t : Task} {id : String}
  {k k' p p' n : Nat} {g : Graph} {s : Stage} {name dir : String}

theorem isPlain_toString (n : Nat) : Shell.IsPlain (toString n) := by
  intro c hc
  have hdigit := isDigit_of_mem_toString hc
  refine Recipe.needsQuotes_of_isIdChar ?_
  simp only [Recipe.isIdChar, Text.isDigit, Bool.or_eq_true]
  exact .inl (.inl (.inr hdigit))

theorem slash_notMem_toString (n : Nat) : '/' ∉ (toString n).toList := by
  intro h
  cases isDigit_of_mem_toString h

theorem isName_partitionName (k p : Nat) : IsName (partitionName k p) := by
  refine isName_of_head (head_partitionName k p) (by decide) ?_
  simp only [partitionName, String.toList_append, List.mem_append, not_or]
  exact ⟨⟨⟨by decide, slash_notMem_toString k⟩, by decide⟩, slash_notMem_toString p⟩

namespace PublishTask

/-- The text of a command's pattern before its star. -/
def stem (id : String) (k : Nat) : String :=
  scratchDir id ++ "/cmd-" ++ toString k ++ "-partition-"

/-- The pattern of the directories that a command's tasks write to. -/
def pattern (id : String) (k : Nat) : List Shell.PatternPart :=
  (stem id k).toList.map Shell.PatternPart.char ++ [Shell.PatternPart.star]

theorem isPlain_stem (h : Recipe.deriveId name = .ok id) : Shell.IsPlain (stem id k) := by
  have hcommand : Shell.IsPlain "/cmd-" := Shell.isPlain_of_all (by decide)
  have hpartition : Shell.IsPlain "-partition-" := Shell.isPlain_of_all (by decide)
  exact (((Recipe.isPlain_scratchDir h).append hcommand).append (isPlain_toString k)).append
    hpartition

/-- The pattern of a publishing script is a command's stem with a star behind it. -/
theorem gathered?_gather {text : String} (h : Recipe.deriveId name = .ok id) :
    gathered? (gather id k ++ text) = some (pattern id k) := by
  have hgather : gather id k = "mkdir -p " ++ inputDir ++ " && for d in " ++
      stageOutputGlob id k ++ "; do [ -d \"$d\" ] && cp -r \"$d\"/. " ++ inputDir ++ "; done" :=
    rfl
  have hstar : "-partition-*" = "-partition-" ++ "*" := rfl
  obtain ⟨rest, hchars⟩ : ∃ rest, (gather id k ++ text).toList =
      ("mkdir -p " ++ inputDir ++ " && for d in ").toList ++
        ((stem id k).toList ++ '*' :: ';' :: rest) := by
    simp only [hgather, stageOutputGlob, stem, hstar, String.toList_append, List.append_assoc]
    exact ⟨_, rfl⟩
  have hends : Shell.Ends (';' :: rest) := by
    intro c hc
    cases hc
    decide
  rw [gathered?, hchars, ShellWorkflow.dropPrefix?_append, Option.bind_eq_bind, Option.bind_some,
    Shell.readPattern_star (isPlain_stem h) hends]
  rfl

example : Shell.isMatch (pattern "r" 1) true (partitionDir "r" 1 10).toList = true ∧
    Shell.isMatch (pattern "r" 1) true (partitionDir "r" 11 0).toList = false := by
  decide +kernel

theorem gathered?_of_make (hid : Recipe.deriveId r.name = .ok r.id)
    (h : make r (.partitions k) = .ok publish) : publish.container.script?.bind gathered? =
      some (pattern r.id k) := by
  obtain ⟨text, -, hp⟩ := bind_eq_ok.1 h
  cases hp
  have hscript : (forOutput r.id r.output { Container.shell (gather r.id k ++ " && " ++ text ++
      " && rm -rf " ++ scratchDir r.id) with mounts := [⟨volumeMount, none⟩] }).script? =
        some (gather r.id k ++ (" && " ++ (text ++ (" && rm -rf " ++ scratchDir r.id)))) := by
    simp only [← String.append_assoc]
    cases r.output <;> rfl
  rw [hscript, Option.bind_some, gathered?_gather hid]

end PublishTask

namespace ShellWorkflow

variable {a : PartitionAddress} {files : List FetchItem} {command : String} {ds : List String}

theorem standsAt_fileTask :
    Task.StandsAt { fileTask r a files command with dependencies := ds } a := by
  have henv : (fileTask r a files command).container.env =
      Table.ofList [("RECIPE_ID", a.recipeId), ("CMD_INDEX", toString a.command),
        ("PARTITION_ID", toString a.partition), ("INPUT_DIR", a.inputDir),
        ("OUTPUT_DIR", a.outputDir),
        ("PARTITION_FILES", "\n".intercalate (files.map FetchItem.filename))] := by
    rw [fileTask]
  refine ⟨rfl, ?_, ?_⟩
  · rw [Task.env?, henv, Table.find?_ofList]
    simp
  · rw [Task.env?, henv, Table.find?_ofList]
    simp

section

variable (hg : g = (emptyGraph r).appendAll (partitionedStages r w items publish))
include hg

end

end ShellWorkflow

end RecipeFlow
