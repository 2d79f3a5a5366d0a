/-! Recipes: what is fetched, what is run on it, and where the result goes. -/
namespace RecipeFlow

/-- The kind of an input, as recipes write it. -/
inductive InputKind where
  | url
  | pvcMount
  | fileSystem
  | dataone
  /-- Any other text; such a recipe loads but does not compile. -/
  | unknown (text : String)
  deriving DecidableEq, Repr, Inhabited

namespace InputKind

def ofString (s : String) : InputKind :=
  if s = "url" then .url
  else if s = "pvc_mount" then .pvcMount
  else if s = "file_system" then .fileSystem
  else if s = "dataone" then .dataone
  else .unknown s

def text : InputKind → String
  | url => "url"
  | pvcMount => "pvc_mount"
  | fileSystem => "file_system"
  | dataone => "dataone"
  | unknown s => s

def isKnown : InputKind → Bool
  | unknown _ => false
  | _ => true

end InputKind

/-- One file of a dataset. -/
structure DataObject where
  identifier : String
  url : String
  filename : String
  formatId : String
  /-- Bytes, below 2^64. -/
  size : Nat
  entityName : String
  deriving DecidableEq, Repr, Inhabited

/-- One entry of a recipe's input list. -/
structure Input where
  kind : InputKind
  value : String
  /-- Pattern that selects files of a dataset by name. -/
  filename : Option String := none
  /-- The files that a dataset was resolved to. -/
  resolved : List DataObject := []
  deriving DecidableEq, Repr, Inhabited

/-- Where a recipe's result is published. -/
inductive Output where
  /-- A directory of the shared volume, named by the recipe's identifier. -/
  | pvc
  /-- An archive that the engine keeps for a while. -/
  | temporary
  /-- A repository; reserved. -/
  | dataone
  deriving DecidableEq, Repr, Inhabited

namespace Output

def text : Output → String
  | pvc => "pvc"
  | temporary => "temporary"
  | dataone => "dataone"

/-- Whether one can ask for earlier results. -/
def isQueryable : Output → Bool
  | pvc => true
  | _ => false

end Output

/-- How the commands of a shell recipe are spread over partitions of its inputs. -/
structure Parallel where
  enabled : Bool := false
  /-- Files of a partition; within 64 bits with sign. -/
  partitionSize : Option Int := none
  deriving DecidableEq, Repr, Inhabited

namespace Parallel

/-- Parallel runs with partitions of the given size. -/
def ofSize (size : Int) : Parallel :=
  ⟨true, some size⟩

/-- Partitions hold one file unless a greater size is set. -/
def effectiveSize (p : Parallel) : Nat :=
  match p.partitionSize with
  | some size => (max size 1).toNat
  | none => 1

end Parallel

/-- Commands that run in a shell, each on what the one before it wrote. -/
structure ShellWorkflow where
  /-- Path of the shell file. -/
  file : String
  commands : List String
  parallel : Parallel
  deriving DecidableEq, Repr, Inhabited

/-- Tiling of one input for display on a map. -/
structure Visualization where
  /-- Features of a batch, below 2^32. -/
  batchSize : Nat
  /-- Path of the settings file. -/
  configFile : Option String
  /-- The settings as compact JSON. -/
  configJson : String
  deriving DecidableEq, Repr, Inhabited

/-- What is run on the inputs. -/
inductive Workflow where
  | shell (w : ShellWorkflow)
  | visualization (w : Visualization)
  deriving DecidableEq, Repr, Inhabited

namespace Workflow

def kind : Workflow → String
  | shell _ => "shell"
  | visualization _ => "visualization"

end Workflow

/-- A recipe whose files have been read and checked. -/
structure Recipe where
  name : String
  /-- Names everything that the recipe produces. -/
  id : String
  /-- Image that the commands run in. -/
  image : Option String
  inputs : List Input
  output : Output
  workflow : Workflow
  /-- Path of the recipe's directory. -/
  directory : String
  deriving DecidableEq, Repr, Inhabited

namespace Recipe

def hasDatasets (r : Recipe) : Bool :=
  r.inputs.any fun i => i.kind = .dataone

/-- Only shell recipes are run in parallel. -/
def parallel (r : Recipe) : Parallel :=
  match r.workflow with
  | .shell w => w.parallel
  | .visualization _ => {}

end Recipe

end RecipeFlow
