import RecipeFlow.Duration.Basic

/-! How an engine is reached and what every execution on it has in common. -/
namespace RecipeFlow

/-- The settings of one engine. -/
structure EngineConfig where
  /-- Where the engine's interface is found. -/
  baseUrl : String := "http://localhost:2746"
  /-- Where executions are created. -/
  space : String := "argo-helm"
  /-- The account executions run as. -/
  serviceAccount : String := "argo-workflow"
  /-- The image of tasks that name none. -/
  image : String := "ogdc-runner"
  imagePullPolicy : String := "Never"
  /-- The claim of the shared volume. -/
  volumeClaim : String := "ogdc-workflow-pvc"
  /-- How many tasks of an execution may run at once, below 2^32. -/
  maxParallelism : Nat := 5
  /-- How long a single request may take. -/
  requestTimeout : Duration := .ofSeconds 30
  /-- Whether finished executions are archived. -/
  archive : Bool := true
  deriving DecidableEq, Repr

end RecipeFlow
