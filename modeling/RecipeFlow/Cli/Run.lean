import RecipeFlow.Cli.Arguments
import RecipeFlow.Engine.Settings
import RecipeFlow.Recipe.Validate
import RecipeFlow.Run.World

/-! What the command line prints and how it ends. -/
namespace RecipeFlow.Cli

/-- What a run of the program leaves behind. -/
structure Report where
  /-- The exit status. -/
  code : Nat
  stdout : String
  /-- The report of what went wrong. -/
  stderr : String
  deriving DecidableEq, Repr, Inhabited

/-- The text that a version is asked for with. -/
def versionText : String := "recipe-runner 0.1.0\n"

/-- What help says. -/
def helpText : String :=
  String.join ([
    "Compile recipes into workflows and run them",
    "",
    "Usage: recipe-runner [OPTIONS] <COMMAND>",
    "",
    "Commands:",
    "  submit        Submit a recipe for execution",
    "  status        Show the phase of a submitted workflow",
    "  validate      Check that a recipe loads and compiles",
    "  validate-all  Validate every recipe under a directory",
    "  render        Print the workflow manifest a submission would send"].map (· ++ "\n"))

/-- The report of a fault, in more words if more output was asked for. -/
def faultText (verbose : Nat) (f : Fault) : String :=
  "Error: " ++ f.message ++ "\n" ++
    (match f.workflow? with
      | some name => "Inspect the workflow with: argo get " ++ name ++ "\n"
      | none => "") ++
    (if verbose = 0 then "" else "\n" ++ Code.describe f.code ++ "\n")

def Report.ofFault (verbose : Nat) (f : Fault) : Report :=
  ⟨f.exitCode, "", faultText verbose f⟩

/-- What is printed about many recipes. It is an error if one of them is at fault. -/
def Report.ofRecipes (r : Recipe.Report) : Report :=
  let bad := r.invalid.length
  let total := bad + r.valid.length
  let lines := r.valid.map (fun dir => "ok      " ++ dir ++ "\n") ++
    r.invalid.map fun (dir, f) => "invalid " ++ dir ++ ": " ++ f.message ++ "\n"
  ⟨if r.isOk then 0 else 1, String.join lines,
    if r.isOk then ""
    else "Error: " ++ toString bad ++ " of " ++ toString total ++ " recipes are invalid\n"⟩

/-- The variable that names the node to resolve datasets at. -/
def nodeVariable : String := "RECIPE_RUNNER_DATAONE_NODE_URL"

/-- The settings of the engine: from a file, if one is named, and the environment. -/
def settings (files : Files) (env : String → Option String) (file : Option String) :
    Except Fault EngineConfig := do
  let c ← match file with
    | some path => EngineConfig.ofFile files path
    | none => .ok {}
  let c ← c.withEnvironment env
  c.validate
  return c

/-- Does what is asked for; gives what is printed unless there is a fault. -/
def perform (looks : Nat) (files : Files) (env : String → Option String) (i : Invocation) :
    Dialogue Report := do
  let resolvable := (env nodeVariable).isSome
  let printed (s : String) : Report := ⟨0, s, ""⟩
  match i.command with
  | .submit dir options =>
    let c ← Dialogue.ofExcept (settings files env i.engineConfig)
    return printed ((← Recipe.submit looks files resolvable c options dir) ++ "\n")
  | .status name =>
    let c ← Dialogue.ofExcept (settings files env i.engineConfig)
    return printed (name ++ ": " ++ (← Lifecycle.poll c name).text ++ "\n")
  | .validate dir =>
    let r ← Dialogue.ofExcept (Recipe.validate files dir)
    return printed ("Recipe '" ++ r.name ++ "' (" ++ r.id ++ ") is valid\n")
  | .validateAll root => return .ofRecipes (← Dialogue.ofExcept (Recipe.validateAll files root))
  | .render dir =>
    let c ← Dialogue.ofExcept (settings files env i.engineConfig)
    return printed ((← Recipe.render files resolvable c dir).toJson.indented ++ "\n")

/-- The report of a program that has ended; one that has stalled is still waiting. -/
def Report.ofOutcome (verbose : Nat) : Outcome Report → Option Report
  | .done r => some r
  | .failed f => some (.ofFault verbose f)
  | .stalled => none

/-- The report of arguments that make no command. -/
def Report.ofStop : Stop → Report
  | .usage f => ⟨2, "", "error: " ++ f.text ++ "\n"⟩
  | .help => ⟨0, helpText, ""⟩
  | .version => ⟨0, versionText, ""⟩

/-- The world that the program runs in: a server and a node on a network. -/
def world {ν : Type} (net : Http.Network ν) (env : String → Option String) : World (Clocked ν) :=
  .ofParts (Server.engine net) (Dataset.Node.resolver net ((env nodeVariable).getD ""))

end RecipeFlow.Cli
