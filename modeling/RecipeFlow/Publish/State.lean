import RecipeFlow.Publish.Graphs
import RecipeFlow.Run.Lifecycle
import RecipeFlow.Text.Quoted

/-! Whether a recipe's results are already published. Only the engine sees the shared volume, so an
execution of its own looks there, and another one clears it. -/
namespace RecipeFlow.Publish

/-- What the output of a check says, blanks around it aside. -/
def readAnswer? (output : Option String) : Option Bool :=
  match output.map Text.trim with
  | some s => if s = "yes" then some true else if s = "no" then some false else none
  | none => none

/-- The fault of a check whose output says neither yes nor no. -/
def unclear (id : String) (e : Execution) (output : Option String) : Fault :=
  .execution Code.missingOutput
    ("Failed to determine publication status for " ++ id ++ ": " ++ answerParameter ++
      " output was " ++ Text.quotedOption (output.map Text.trim))
    (some e.name)

/-- Checks whether a recipe's data are published. -/
def isPublished (looks : Nat) (c : EngineConfig) (o : PollOptions) (id : String) :
    Dialogue Bool := do
  let e ← Lifecycle.runToCompletion looks c (checkGraph id) o
  let output := e.output? checkName answerParameter
  Dialogue.discard e.name c
  match readAnswer? output with
  | some b => pure b
  | none => .failed (unclear id e output)

/-- Removes what is published for a recipe. -/
def remove (looks : Nat) (c : EngineConfig) (o : PollOptions) (id : String) : Dialogue Unit := do
  let e ← Lifecycle.runToCompletion looks c (clearGraph id) o
  Dialogue.discard e.name c

/-- Whether a recipe must not run because its results are there. With `overwrite` they are removed
first. Results that one cannot ask for never count as published. -/
def isBlocked (looks : Nat) (c : EngineConfig) (o : PollOptions) (overwrite : Bool) (r : Recipe) :
    Dialogue Bool := do
  if overwrite then
    remove looks c o r.id
    pure false
  else if r.output.isQueryable then isPublished looks c o r.id
  else pure false

end RecipeFlow.Publish
