import RecipeFlow.Compile.Fetch
import RecipeFlow.Compile.Publish
import RecipeFlow.Partition

/-! Shell recipes as graphs: fetching, the commands in their order, publishing. Each command runs in
one task on what the one before it left, or in one task for each partition of the inputs. -/
namespace RecipeFlow.ShellWorkflow

def fetchName : String := "fetch-inputs"

/-- The label that names the recipe of an execution. -/
def recipeLabel : String := "recipe-runner/recipe-id"

/-- A graph without stages for a recipe's kind of workflow. -/
def emptyGraph (r : Recipe) : Graph :=
  (Graph.empty (r.id ++ "-" ++ r.workflow.kind ++ "-")).label recipeLabel r.id

def stepName (index : Nat) : String :=
  "step-" ++ toString index

/-- The task before a command when each runs in one. -/
def previousName : Nat → String
  | 0 => fetchName
  | k + 1 => stepName k

/-- The task that runs a command on the output of the task before it. -/
def stepTask (r : Recipe) (index : Nat) (command : String) : Task where
  name := stepName index
  container := { Container.shell ("mkdir -p " ++ outputDir ++ " && " ++ command) with
    image := r.image
    env := Table.ofList [("INPUT_DIR", inputDir), ("OUTPUT_DIR", outputDir)]
    inputArtifacts := [inputArtifact]
    outputArtifacts := [outputArtifact] }
  consumes := some (consumeOutputOf (previousName index))

/-- The task that fetches all items into its output directory. -/
def fetchTask (items : List FetchItem) : Task where
  name := fetchName
  container := { Container.shell (FetchItem.fetchCommand items outputDir .server) with
    outputArtifacts := [outputArtifact] }

/-- One task for each command. -/
def sequential (r : Recipe) (w : ShellWorkflow) (items : List FetchItem) :
    Except Fault Graph := do
  let fetched := (emptyGraph r).append "fetch" .fetch [fetchTask items]
  let stepped := w.commands.zipIdx.foldl
    (fun g (command, k) => g.append (stepName k) (.process k) [stepTask r k command]) fetched
  let publish ← PublishTask.make r (.task (previousName w.commands.length))
  return stepped.append "publish" .publish [publish]

/-- The lines that run a command on one staged file. -/
def fileLines (staging command : String) (i : FetchItem) : List String :=
  ["export INPUT_FILE=" ++ Shell.quote (i.inputPath staging),
    "export OUTPUT_FILE=\"$OUTPUT_DIR\"/" ++ Shell.quote i.filename, command]

/-- The lines that run a command on every file of the input directory. -/
def directoryLines (command : String) : List String :=
  ["[ -d \"$INPUT_DIR\" ] || \x7b echo \"ERROR: Input directory does not exist: $INPUT_DIR\"; exit 1; \x7d",
    "for INPUT_FILE in \"$INPUT_DIR\"/*; do",
    "  [ -f \"$INPUT_FILE\" ] || continue",
    "  export INPUT_FILE",
    "  export OUTPUT_FILE=\"$OUTPUT_DIR/$(basename \"$INPUT_FILE\")\"",
    "  " ++ command,
    "done"]

/-- The lines of a partition's script: the first command runs on the partition's own files, a later
one on whatever the one before it left in the partition's directory. -/
def partitionLines (a : PartitionAddress) (items : List FetchItem) (staging command : String) :
    List String :=
  ["set -e", "mkdir -p \"$OUTPUT_DIR\""] ++
    match a.command with
    | 0 => items.flatMap (fileLines staging command)
    | _ + 1 => directoryLines command

/-- The script that runs a command once for each file of a partition. -/
def partitionScript (a : PartitionAddress) (items : List FetchItem) (staging command : String) :
    String :=
  "\n".intercalate (partitionLines a items staging command)

/-- The item of a source; of two with one source the last counts. -/
def itemOf (items : List FetchItem) (source : String) : Except Fault FetchItem :=
  match items.reverse.find? (·.source = source) with
  | some i => .ok i
  | none => .error (.invalid Code.emptyPartitionInput
      ("partition file " ++ source ++ " has no fetch entry") none)

/-- The task that runs a command on the files of a partition. -/
def fileTask (r : Recipe) (a : PartitionAddress) (files : List FetchItem) (command : String) :
    Task where
  name := a.taskName
  container := {
    Container.shell (partitionScript a files (inputsDir r.id) command) with
    image := r.image
    env := Table.ofList [("RECIPE_ID", a.recipeId), ("CMD_INDEX", toString a.command),
      ("PARTITION_ID", toString a.partition), ("INPUT_DIR", a.inputDir),
      ("OUTPUT_DIR", a.outputDir),
      ("PARTITION_FILES", "\n".intercalate (files.map FetchItem.filename))]
    mounts := [⟨volumeMount, none⟩] }

/-- The task that runs a command on one partition, whose files are looked up by their sources. -/
def partitionTask (r : Recipe) (items : List FetchItem) (a : PartitionAddress) (p : Partition)
    (command : String) : Except Fault Task := do
  return fileTask r a (← p.files.mapM (itemOf items)) command

def commandStageName (index : Nat) : String :=
  "cmd-" ++ toString index

/-- The tasks of a command, one for each partition of all items. -/
def partitionTasks (r : Recipe) (w : ShellWorkflow) (items : List FetchItem) (index : Nat)
    (command : String) : Except Fault (List Task) := do
  let ps ← Partition.plan (items.map FetchItem.source) w.parallel.effectiveSize
    (commandStageName index)
  ps.mapM fun p => partitionTask r items ⟨r.id, index, p.number⟩ p command

/-- The task that fetches all items onto the shared volume. What an earlier run left there is
removed first, since it would be gathered too. -/
def stagingTask (r : Recipe) (items : List FetchItem) : Task where
  name := fetchName
  container := { Container.shell ("rm -rf " ++ scratchDir r.id ++ " && " ++
      FetchItem.fetchCommand items (inputsDir r.id) .pinned) with
    mounts := [⟨volumeMount, none⟩] }

/-- One task for each command and partition. -/
def partitioned (r : Recipe) (w : ShellWorkflow) (items : List FetchItem) :
    Except Fault Graph := do
  FetchItem.checkDistinct items
  let fetched := (emptyGraph r).append "fetch" .fetch [stagingTask r items]
  let processed ← w.commands.zipIdx.foldlM
    (fun g (command, k) => do
      let tasks ← partitionTasks r w items k command
      return g.append (commandStageName k) (.process k) tasks) fetched
  let publish ← PublishTask.make r (.partitions (w.commands.length - 1))
  return processed.append "publish" .publish [publish]

end RecipeFlow.ShellWorkflow
