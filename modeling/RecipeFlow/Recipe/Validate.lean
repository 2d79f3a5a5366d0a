import RecipeFlow.Compile.Basic
import RecipeFlow.Recipe.Load

/-! Checking recipes without running them. -/
namespace RecipeFlow.Recipe

/-- Loads a recipe that compiles. One with datasets is not compiled: they are not resolved yet. -/
def validate (files : Files) (dir : String) : Except Fault Recipe := do
  let r ← ofDirectory files dir
  if r.hasDatasets then .ok r
  else do
    let _ ← r.compile
    .ok r

/-- The directories right below a root that hold a recipe's document, in ascending order. -/
def find (files : Files) (root : String) : Except Fault (List String) :=
  match files.subdirectories? root with
  | some names =>
    .ok ((names.map (Files.join root)).filter fun dir => files.isFile (Files.join dir documentName))
  | none =>
    .error (.recipeNotFound Code.recipeDirNotFound "Recipes directory not found" root)

/-- What checking many recipes has shown: directories, and those at fault with their faults. -/
structure Report where
  valid : List String
  invalid : List (String × Fault)

def Report.isOk (r : Report) : Bool :=
  r.invalid.isEmpty

/-- Checks all recipes right below a root. -/
def validateAll (files : Files) (root : String) : Except Fault Report := do
  let dirs ← find files root
  return {
    valid := dirs.filter fun dir => (validate files dir).isOk
    invalid := dirs.filterMap fun dir =>
      match validate files dir with
      | .ok _ => none
      | .error f => some (dir, f) }

end RecipeFlow.Recipe
