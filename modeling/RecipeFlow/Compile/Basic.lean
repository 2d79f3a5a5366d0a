import RecipeFlow.Compile.Visualization

/-! Recipes as task graphs. -/
namespace RecipeFlow.Recipe

/-- The graph that a recipe runs. The kind of every input is checked, whatever uses it. -/
def compile (r : Recipe) : Except Fault Graph := do
  let items ← FetchItem.ofInputs r.inputs
  match r.workflow with
  | .shell w =>
    if w.parallel.enabled then w.partitioned r items else w.sequential r items
  | .visualization w => w.graph r

end RecipeFlow.Recipe
