import RecipeFlow.Engine.Config
import RecipeFlow.Graph.Basic
import RecipeFlow.Json.Basic

/-! Manifests: a task graph as the engine's interface takes it, one entry point that lists the
tasks and one template for each of them. -/
namespace RecipeFlow

/-- The place of a task in the entry point. -/
structure DagTask where
  name : String
  template : String
  dependencies : List String
  consumes : Option Consumption
  /-- The task whose printed list the task is repeated over. -/
  repeatedOver : Option String
  deriving DecidableEq, Repr

/-- What a task of the entry point runs. -/
structure Template where
  name : String
  image : String
  pullPolicy : String
  command : List String
  args : List String
  /-- Environment variables with their values, in order. -/
  env : List (String × String)
  mounts : List Mount
  inputArtifacts : List Artifact
  inputParameters : List String
  outputArtifacts : List Artifact
  outputParameters : List OutputParameter
  deriving DecidableEq, Repr

/-- What is sent to the engine to create an execution. -/
structure Manifest where
  generateName : String
  space : String
  labels : Table String
  serviceAccount : String
  parallelism : Nat
  tasks : List DagTask
  templates : List Template
  /-- The claim of the shared volume, when a task mounts it. -/
  volumeClaim : Option String
  deriving DecidableEq, Repr

namespace Manifest

/-- The name of the template that lists the tasks. -/
def entrypoint : String := "main"

/-- The name of the shared volume inside a manifest. -/
def volumeName : String := "workflow-volume"

/-- The parameter that carries the item of a repeated task. -/
def itemParameter : String := "item"

/-- The label that turns archiving off. -/
def archiveLabel : String := "workflows.argoproj.io/archive-strategy"

/-- A reference that the engine replaces by a value. -/
def reference (inner : String) : String :=
  "\x7b\x7b" ++ inner ++ "\x7d\x7d"

/-- The place of a task in the entry point. -/
def dagTask (t : Task) : DagTask :=
  ⟨t.name, t.name, t.dependencies, t.consumes, t.fanOut.map FanOut.fromTask⟩

/-- A repeated task takes its item as a parameter and hands it on in the environment. -/
def template (config : EngineConfig) (t : Task) : Template where
  name := t.name
  image := t.container.image.getD config.image
  pullPolicy := config.imagePullPolicy
  command := t.container.command
  args := t.container.args
  env := t.container.env ++ match t.fanOut with
    | some f => [(f.itemEnv, reference ("inputs.parameters." ++ itemParameter))]
    | none => []
  mounts := t.container.mounts
  inputArtifacts := t.container.inputArtifacts
  inputParameters := if t.fanOut.isSome then [itemParameter] else []
  outputArtifacts := t.container.outputArtifacts
  outputParameters := t.container.outputParameters

/-- The manifest of a graph under an engine's settings. -/
def ofGraph (g : Graph) (config : EngineConfig) : Manifest where
  generateName := g.generateName
  space := config.space
  labels := if config.archive then g.labels else g.labels.insert archiveLabel "false"
  serviceAccount := config.serviceAccount
  parallelism := config.maxParallelism
  tasks := g.tasks.map dagTask
  templates := g.tasks.map (template config)
  volumeClaim := if g.usesVolume then some config.volumeClaim else none

/-- The member when its list is not empty. -/
def unlessEmpty (k : String) (vs : List Json) : List (String × Json) :=
  if vs.isEmpty then [] else [(k, .arr vs)]

/-- The member when it has members itself. -/
def unlessBare (k : String) (ms : List (String × Json)) : List (String × Json) :=
  if ms.isEmpty then [] else [(k, .mk ms)]

/-- The arguments that supply a template's inputs. -/
def argumentsJson (t : DagTask) : List (String × Json) :=
  unlessBare "arguments"
    ((match t.consumes with
      | some c => [("artifacts", .arr [.mk [("name", .str c.asInput),
          ("from", .str (reference
            ("tasks." ++ c.fromTask ++ ".outputs.artifacts." ++ c.artifact)))]])]
      | none => []) ++
    (match t.repeatedOver with
      | some _ => [("parameters", .arr [.mk [("name", .str itemParameter),
          ("value", .str (reference "item"))]])]
      | none => []))

def dagTaskJson (t : DagTask) : Json :=
  .mk ([("name", .str t.name), ("template", .str t.template)] ++
    unlessEmpty "dependencies" (t.dependencies.map .str) ++ argumentsJson t ++
    (match t.repeatedOver with
      | some task => [("withParam", .str (reference ("tasks." ++ task ++ ".outputs.result")))]
      | none => []))

def mountJson (m : Mount) : Json :=
  .mk ([("name", .str volumeName), ("mountPath", .str m.path)] ++
    (match m.subPath with
      | some s => [("subPath", .str s)]
      | none => []))

def inputArtifactJson (a : Artifact) : Json :=
  .mk ([("name", .str a.name), ("path", .str a.path)] ++
    (match a.url with
      | some u => [("http", .mk [("url", .str u)])]
      | none => []))

def outputArtifactJson (a : Artifact) : Json :=
  .mk ([("name", .str a.name), ("path", .str a.path)] ++
    (if a.archive then [] else [("archive", .mk [("none", .obj [])])]))

def containerJson (t : Template) : Json :=
  .mk ([("image", .str t.image), ("imagePullPolicy", .str t.pullPolicy),
      ("command", .strings t.command), ("args", .strings t.args)] ++
    unlessEmpty "env" (t.env.map fun (n, v) => .mk [("name", .str n), ("value", .str v)]) ++
    unlessEmpty "volumeMounts" (t.mounts.map mountJson))

def templateJson (t : Template) : Json :=
  .mk ([("name", .str t.name), ("container", containerJson t)] ++
    unlessBare "inputs"
      (unlessEmpty "artifacts" (t.inputArtifacts.map inputArtifactJson) ++
        unlessEmpty "parameters" (t.inputParameters.map fun n => .mk [("name", .str n)])) ++
    unlessBare "outputs"
      (unlessEmpty "artifacts" (t.outputArtifacts.map outputArtifactJson) ++
        unlessEmpty "parameters" (t.outputParameters.map fun p =>
          .mk [("name", .str p.name), ("valueFrom", .mk [("path", .str p.path)])])))

/-- The document of a manifest. -/
def toJson (m : Manifest) : Json :=
  .mk [
    ("metadata", .mk [("generateName", .str m.generateName), ("namespace", .str m.space),
      ("labels", .mk (m.labels.map fun (k, v) => (k, .str v)))]),
    ("spec", .mk ([("entrypoint", .str entrypoint),
      ("serviceAccountName", .str m.serviceAccount), ("parallelism", .int m.parallelism),
      ("templates", .arr (.mk [("name", .str entrypoint),
          ("dag", .mk [("tasks", .arr (m.tasks.map dagTaskJson))])] ::
        m.templates.map templateJson))] ++
      (match m.volumeClaim with
        | some c => [("volumes", .arr [.mk [("name", .str volumeName),
            ("persistentVolumeClaim", .mk [("claimName", .str c)])]])]
        | none => [])))]

end Manifest

end RecipeFlow
