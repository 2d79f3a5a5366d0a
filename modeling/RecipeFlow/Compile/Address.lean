/-! Directories of a parallel run on the shared volume. All of them lie below the scratch
directory of the recipe, apart from where its data is published. -/
namespace RecipeFlow

/-- Where the shared volume is mounted inside tasks. -/
def volumeMount : String := "/mnt/workflow"

/-- The directory, relative to the volume, of every recipe's intermediate data. -/
def scratchRoot : String := ".work"

/-- The directory of a recipe's intermediate data. -/
def scratchDir (recipeId : String) : String :=
  volumeMount ++ "/" ++ scratchRoot ++ "/" ++ recipeId

/-- The directory that fetched inputs are staged in. -/
def inputsDir (recipeId : String) : String :=
  scratchDir recipeId ++ "/inputs"

/-- The name shared by a partition's task and directory. -/
def partitionName (command partition : Nat) : String :=
  "cmd-" ++ toString command ++ "-partition-" ++ toString partition

/-- The directory that a partition's task writes. -/
def partitionDir (recipeId : String) (command partition : Nat) : String :=
  scratchDir recipeId ++ "/" ++ partitionName command partition

/-- A pattern for the directories written by the tasks of a command. -/
def stageOutputGlob (recipeId : String) (command : Nat) : String :=
  scratchDir recipeId ++ "/cmd-" ++ toString command ++ "-partition-*"

/-- The place of one partition's task in a run. -/
structure PartitionAddress where
  recipeId : String
  command : Nat
  partition : Nat
  deriving DecidableEq, Repr

namespace PartitionAddress

/-- The first command reads the staged inputs, a later one what the same partition's task of the
command before it wrote. -/
def inputDir (a : PartitionAddress) : String :=
  match a.command with
  | 0 => inputsDir a.recipeId
  | k + 1 => partitionDir a.recipeId k a.partition

def outputDir (a : PartitionAddress) : String :=
  partitionDir a.recipeId a.command a.partition

def taskName (a : PartitionAddress) : String :=
  partitionName a.command a.partition

end PartitionAddress

end RecipeFlow
