import RecipeFlow.Compile.Basic
import RecipeFlow.Dataset.Select
import RecipeFlow.Engine.Manifest
import RecipeFlow.Publish.State
import RecipeFlow.Recipe.Load

/-! Running a recipe: its datasets are resolved, then it is checked that its results are not there,
and then its graph is submitted. -/
namespace RecipeFlow

/-- How a recipe is submitted. -/
structure SubmitOptions where
  /-- Whether to wait for the end of the execution. -/
  wait : Bool := false
  /-- Whether to replace published results. -/
  overwrite : Bool := false
  poll : PollOptions := {}
  deriving DecidableEq, Repr, Inhabited

namespace Input

/-- Resolves a dataset; any other input is left as it is. -/
def resolve (i : Input) : Dialogue Input := do
  if i.kind = .dataone then
    let objects ← Dialogue.list i.value
    return { i with resolved := ← .ofExcept (Dataset.select i.value i.filename objects) }
  else pure i

/-- Resolves inputs in order. -/
def resolveAll : List Input → Dialogue (List Input)
  | [] => pure []
  | i :: r => do
    let i ← i.resolve
    return i :: (← resolveAll r)

end Input

namespace Recipe

/-- Resolves the datasets among a recipe's inputs. -/
def resolve (r : Recipe) : Dialogue Recipe := do
  return { r with inputs := ← Input.resolveAll r.inputs }

/-- The fault of a recipe with datasets where none can be resolved. -/
def unresolvable (r : Recipe) : Fault :=
  .resolution Code.unresolved
    ("recipe " ++ r.id ++ " has dataone inputs but no dataset resolver is configured") none

/-- Loads a recipe and resolves its datasets, if they can be resolved at all. -/
def loadResolved (files : Files) (resolvable : Bool) (dir : String) : Dialogue Recipe := do
  let r ← Dialogue.ofExcept (ofDirectory files dir)
  if !r.hasDatasets then pure r
  else if !resolvable then .failed r.unresolvable
  else r.resolve.mapFault (·.withContext ("while resolving inputs of recipe " ++ r.id))

/-- Submits a graph and waits for its end if one is to; gives the execution's name. -/
def launch (looks : Nat) (c : EngineConfig) (o : SubmitOptions) (g : Graph) : Dialogue String := do
  let name ← Lifecycle.submit c g
  if o.wait then
    let _ ← Lifecycle.wait looks c name o.poll
  pure name

/-- Runs a loaded recipe unless its results are published; gives the execution's name. -/
def start (looks : Nat) (c : EngineConfig) (o : SubmitOptions) (r : Recipe) :
    Dialogue String := do
  if ← Publish.isBlocked looks c o.poll o.overwrite r then .failed (.published r.id)
  else launch looks c o (← Dialogue.ofExcept r.compile)

/-- Runs the recipe in a directory unless its results are published; gives the execution's name. -/
def submit (looks : Nat) (files : Files) (resolvable : Bool) (c : EngineConfig)
    (o : SubmitOptions) (dir : String) : Dialogue String := do
  start looks c o (← loadResolved files resolvable dir)

/-- What would be sent to the engine for the recipe in a directory. -/
def render (files : Files) (resolvable : Bool) (c : EngineConfig) (dir : String) :
    Dialogue Manifest := do
  let r ← loadResolved files resolvable dir
  return Manifest.ofGraph (← Dialogue.ofExcept r.compile) c

end Recipe

end RecipeFlow
