import RecipeFlow.Table

/-! Task graphs: stages of tasks in the order in which they run. -/
namespace RecipeFlow

/-- The shared volume, or a directory of it, inside a task's container. -/
structure Mount where
  path : String
  subPath : Option String
  deriving DecidableEq, Repr

/-- A file or directory that the engine hands between tasks. -/
structure Artifact where
  name : String
  path : String
  /-- Taken from this URL instead of another task. -/
  url : Option String
  /-- Whether it is compressed when stored. -/
  archive : Bool
  deriving DecidableEq, Repr

namespace Artifact

/-- An artifact of a name at a path. -/
def named (name path : String) : Artifact :=
  ⟨name, path, none, true⟩

def fromUrl (a : Artifact) (url : String) : Artifact :=
  { a with url := some url }

def unarchived (a : Artifact) : Artifact :=
  { a with archive := false }

end Artifact

/-- A value that a task leaves in a file and the engine reports back. -/
structure OutputParameter where
  name : String
  path : String
  deriving DecidableEq, Repr

/-- What a task runs. -/
structure Container where
  /-- Image to run instead of the engine's own. -/
  image : Option String := none
  command : List String := []
  args : List String := []
  env : Table String := []
  inputArtifacts : List Artifact := []
  outputArtifacts : List Artifact := []
  outputParameters : List OutputParameter := []
  mounts : List Mount := []
  deriving DecidableEq, Repr

namespace Container

/-- A shell that runs a script. -/
def shell (script : String) : Container :=
  { command := ["sh", "-c"], args := [script] }

/-- The script of a shell container. -/
def script? (c : Container) : Option String :=
  if c.command = ["sh", "-c"] then c.args.head? else none

end Container

/-- The use of another task's output artifact as an input. -/
structure Consumption where
  fromTask : String
  artifact : String
  asInput : String
  deriving DecidableEq, Repr

/-- Runs a task once for each item of a list that another task printed. -/
structure FanOut where
  fromTask : String
  /-- The environment variable that holds the item. -/
  itemEnv : String
  deriving DecidableEq, Repr

/-- One task with the names of the tasks it waits for. -/
structure Task where
  name : String
  container : Container
  dependencies : List String := []
  consumes : Option Consumption := none
  fanOut : Option FanOut := none
  deriving DecidableEq, Repr

/-- What a stage does; a processing stage carries the index of its command. -/
inductive StageKind where
  | fetch
  | process (index : Nat)
  | publish
  | auxiliary
  deriving DecidableEq, Repr

/-- Tasks that may run at the same time. -/
structure Stage where
  name : String
  kind : StageKind
  tasks : List Task
  deriving DecidableEq, Repr

/-- A workflow as an engine runs it. -/
structure Graph where
  /-- The text that the engine extends into the name of an execution. -/
  generateName : String
  stages : List Stage
  labels : Table String
  /-- Whether some task mounts the shared volume. -/
  usesVolume : Bool
  deriving DecidableEq, Repr

namespace Graph

/-- A graph without stages. -/
def empty (generateName : String) : Graph :=
  ⟨generateName, [], [], false⟩

def label (g : Graph) (key value : String) : Graph :=
  { g with labels := g.labels.insert key value }

/-- The names of the tasks of the last stage. -/
def lastNames (g : Graph) : List String :=
  match g.stages.getLast? with
  | some s => s.tasks.map Task.name
  | none => []

/-- Appends a stage whose tasks wait for every task of the stage before it. -/
def append (g : Graph) (name : String) (kind : StageKind) (tasks : List Task) : Graph :=
  { g with
    stages := g.stages ++ [⟨name, kind, tasks.map fun t => { t with dependencies := g.lastNames }⟩]
    usesVolume := g.usesVolume || tasks.any fun t => !t.container.mounts.isEmpty }

/-- All tasks, stage by stage. -/
def tasks (g : Graph) : List Task :=
  g.stages.flatMap Stage.tasks

/-- The first task of a name. -/
def task? (g : Graph) (name : String) : Option Task :=
  g.tasks.find? fun t => t.name = name

def taskCount (g : Graph) : Nat :=
  g.tasks.length

def processStages (g : Graph) : List Stage :=
  g.stages.filter fun s => match s.kind with
    | .process _ => true
    | _ => false

/-- The name of the last stage's task, when it has exactly one. -/
def lastTaskName? (g : Graph) : Option String :=
  match g.lastNames with
  | [n] => some n
  | _ => none

end Graph

end RecipeFlow
