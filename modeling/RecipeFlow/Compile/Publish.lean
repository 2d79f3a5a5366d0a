import RecipeFlow.Compile.Address
import RecipeFlow.Fault.Basic
import RecipeFlow.Graph.Basic
import RecipeFlow.Recipe.Basic

/-! The last task of a shell recipe, which brings the result to where it is published. -/
namespace RecipeFlow

/-- Where a task finds the data handed to it. -/
def inputDir : String := "/input_dir/"

/-- Where a task leaves the data it hands on. -/
def outputDir : String := "/output_dir/"

def inputArtifact : Artifact := .named "input-dir" inputDir

def outputArtifact : Artifact := .named "output-dir" outputDir

/-- The use of a task's output directory as the input directory. -/
def consumeOutputOf (task : String) : Consumption :=
  ⟨task, outputArtifact.name, inputArtifact.name⟩

/-- What is published. -/
inductive PublishSource where
  /-- The output directory of one task. -/
  | task (name : String)
  /-- The directories of all partitions of a command. -/
  | partitions (command : Nat)
  deriving DecidableEq, Repr

namespace PublishTask

def name : String := "publish-data"

/-- The path of a temporary result. -/
def archivePath (id : String) : String :=
  outputDir ++ id ++ ".zip"

/-- The command that publishes what is in the input directory. -/
def command (id : String) : Output → Except Fault String
  | .pvc => .ok ("rsync --progress " ++ inputDir ++ "* " ++ outputDir)
  | .temporary => .ok ("mkdir -p " ++ outputDir ++ " && cd " ++ inputDir ++ " && zip -r " ++
      archivePath id ++ " ./*")
  | .dataone => .error (.invalid Code.recipeUnsupportedOutput
      "publishing to DataONE is not supported yet" (some "output.type"))

/-- The command that copies a command's partitions into the input directory. -/
def gather (id : String) (lastCommand : Nat) : String :=
  "mkdir -p " ++ inputDir ++ " && for d in " ++ stageOutputGlob id lastCommand ++
    "; do [ -d \"$d\" ] && cp -r \"$d\"/. " ++ inputDir ++ "; done"

/-- Adds what the kind of output needs: the recipe's directory of the volume, or an artifact that
holds the archive as it is. -/
def forOutput (id : String) (o : Output) (c : Container) : Container :=
  match o with
  | .temporary => { c with
      outputArtifacts := c.outputArtifacts ++ [(Artifact.named "published-zip"
        (archivePath id)).unarchived] }
  | _ => { c with mounts := c.mounts ++ [⟨outputDir, some id⟩] }

/-- The publishing task. It removes what partitions left on the volume once that is copied. -/
def make (r : Recipe) (source : PublishSource) : Except Fault Task := do
  let publish ← command r.id r.output
  return match source with
  | .task t =>
    { name := name
      container := forOutput r.id r.output
        { Container.shell publish with inputArtifacts := [inputArtifact] }
      consumes := some (consumeOutputOf t) }
  | .partitions k =>
    { name := name
      container := forOutput r.id r.output
        { Container.shell (gather r.id k ++ " && " ++ publish ++ " && rm -rf " ++
            scratchDir r.id) with
          mounts := [⟨volumeMount, none⟩] } }

end PublishTask

end RecipeFlow
