import RecipeFlow.Recipe.Basic
import RecipeFlow.Schema.Record
import RecipeFlow.Yaml.Document

/-! What a recipe's document says, before the files that it names are read. -/
namespace RecipeFlow

/-- The `workflow` section. -/
inductive WorkflowSection where
  | shell (file : String) (parallel : Parallel)
  | visualization (batchSize : Nat) (configFile : Option String)
  deriving DecidableEq, Repr, Inhabited

/-- The file that a workflow names, if it names one. -/
def WorkflowSection.file? : WorkflowSection → Option String
  | shell file _ => some file
  | visualization _ file => file

/-- A recipe's document. The inputs have not been resolved. -/
structure RecipeDocument where
  name : String
  image : Option String
  inputs : List Input
  output : Output
  workflow : WorkflowSection
  deriving DecidableEq, Repr, Inhabited

namespace RecipeDocument

open Yaml Schema

/-! Reading. -/

/-- Sets a field of the parallel settings. -/
def setParallel (p : Parallel) (field : String) (v : Tree) : Except Misfit Parallel :=
  match field with
  | "enabled" => (treeBool v).map fun b => { p with enabled := b }
  | "partition_strategy" => (treeName ["by_file_count", "files"] ["files"] v).map fun _ => p
  | _ => (orNull treeInt v).map fun n => { p with partitionSize := n }

def readParallel : Tree → Except Misfit Parallel :=
  treeRecord "ParallelConfig" ["enabled", "partition_strategy", "partition_size"] setParallel {}

/-- A shell workflow runs the commands of a file, `recipe.sh` if none is named. -/
def readShell (t : Tree) : Except Misfit WorkflowSection := do
  let set (s : String × Parallel) (field : String) (v : Tree) : Except Misfit (String × Parallel) :=
    if field = "sh_file" then (treeText v).map (·, s.2) else (readParallel v).map (s.1, ·)
  let (file, parallel) ←
    treeRecord "ShellWorkflowConfig" ["sh_file", "parallel"] set ("recipe.sh", {}) t
  return .shell file parallel

/-- A visualization has batches of 200 features if it does not say otherwise. -/
def readVisualization (t : Tree) : Except Misfit WorkflowSection := do
  let set (s : Nat × Option String) (field : String) (v : Tree) :
      Except Misfit (Nat × Option String) :=
    if field = "batch_size" then (treeCount v).map (·, s.2)
    else (orNull treeText v).map (s.1, ·)
  let (size, file) ←
    treeRecord "VizWorkflowConfig" ["batch_size", "config_file"] set (200, none) t
  return .visualization size file

def readWorkflow (n : Node) : Except Misfit WorkflowSection := do
  let (kind, rest) ← choice "WorkflowConfig" ["shell", "visualization"] n
  if kind = "shell" then readShell rest else readVisualization rest

/-- An output has no settings: other entries of its mapping are passed over. -/
def readOutput (n : Node) : Except Misfit Output := do
  let (kind, rest) ← choice "RecipeOutput" ["pvc", "temporary", "dataone"] n
  match rest with
  | .sequence (v :: vs) => .error (.wrongLength (v :: vs).length (countedElements 0))
  | _ =>
    return if kind = "pvc" then .pvc else if kind = "temporary" then .temporary else .dataone

/-- An input of which some fields have been read. -/
structure InputDraft where
  kind : Option InputKind := none
  value : Option String := none
  filename : Option String := none

def readInput (n : Node) : Except Misfit Input := do
  let set (d : InputDraft) (field : String) (v : Node) : Except Misfit InputDraft :=
    match field with
    | "type" => (text v).map fun s => { d with kind := some (.ofString s) }
    | "value" => (text v).map fun s => { d with value := some s }
    | _ => (textOrNull v).map fun s => { d with filename := s }
  let d ← record "InputParam" ["type", "value", "filename"] set {} n
  return { kind := ← required "type" d.kind, value := ← required "value" d.value,
           filename := d.filename }

def readInputs (n : Node) : Except Misfit (List Input) := do
  let set (_ : Option (List Input)) (_ : String) (v : Node) := (items readInput v).map some
  required "params" (← record "RecipeInput" ["params"] set none n)

/-- A document of which some sections have been read. -/
structure Sections where
  name : Option String := none
  image : Option String := none
  inputs : Option (List Input) := none
  output : Output := .pvc
  workflow : Option WorkflowSection := none

def setSection (d : Sections) (field : String) (v : Node) : Except Misfit Sections :=
  match field with
  | "name" => (text v).map fun s => { d with name := some s }
  | "image" => (textOrNull v).map fun s => { d with image := s }
  | "input" => (readInputs v).map fun is => { d with inputs := some is }
  | "output" => (readOutput v).map fun o => { d with output := o }
  | _ => (readWorkflow v).map fun w => { d with workflow := some w }

/-- Reads the root of a document. Results go to the shared volume if it does not say otherwise. -/
def ofNode (n : Node) : Except Misfit RecipeDocument := do
  let d ← record "RecipeConfig" ["name", "image", "input", "output", "workflow"] setSection {} n
  return { name := ← required "name" d.name, image := d.image,
           inputs := ← required "input" d.inputs, output := d.output,
           workflow := ← required "workflow" d.workflow }

/-- Reads a text that holds one document. -/
def ofText (s : String) : Except Misfit RecipeDocument := do
  let (root, whole) := document s
  let d ← ofNode root
  if whole then .ok d else .error .syntaxError

/-! Writing. -/

/-- The member, if there is a value. -/
def optional {α : Type} (name : String) (write : α → Tree) (v : Option α) : List (String × Tree) :=
  match v with
  | some a => [(name, write a)]
  | none => []

def writeInput (i : Input) : Tree :=
  .record ([("type", .text i.kind.text), ("value", .text i.value)] ++
    optional "filename" .text i.filename)

def writeParallel (p : Parallel) : Tree :=
  .record ([("enabled", .bool p.enabled), ("partition_strategy", .text "files")] ++
    optional "partition_size" .int p.partitionSize)

def writeWorkflow : WorkflowSection → Tree
  | .shell file parallel =>
    .record [("type", .text "shell"), ("sh_file", .text file), ("parallel", writeParallel parallel)]
  | .visualization size file =>
    .record ([("type", .text "visualization"), ("batch_size", .natural size)] ++
      optional "config_file" .text file)

/-- The document with all defaults written out. -/
def toTree (d : RecipeDocument) : Tree :=
  .record ([("name", .text d.name)] ++ optional "image" .text d.image ++
    [("input", .record [("params", .sequence (d.inputs.map writeInput))]),
     ("output", .record [("type", .text d.output.text)]),
     ("workflow", writeWorkflow d.workflow)])

end RecipeDocument

end RecipeFlow
