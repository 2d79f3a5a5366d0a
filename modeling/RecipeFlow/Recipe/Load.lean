import RecipeFlow.Fault.Basic
import RecipeFlow.Files.Basic
import RecipeFlow.Json.Read
import RecipeFlow.Json.Write
import RecipeFlow.Recipe.Commands
import RecipeFlow.Recipe.Document
import RecipeFlow.Recipe.Identifier
import RecipeFlow.Url.Parse

/-! Loading a recipe: its document is checked and the file that it names is read. -/
namespace RecipeFlow

/-- What is wrong with a value of the recipe. -/
def Fault.badValue (message : String) (field : String) : Fault :=
  .invalid Code.recipeInvalidValue message (some field)

/-- Checks an input by itself; it is the one at an index of its list. -/
def Input.check (index : Nat) (i : Input) : Except Fault Unit :=
  let field := "input.params[" ++ toString index ++ "]"
  if Text.isBlankText i.value then .error (.badValue "input value must not be empty" field)
  else
    let urlFault : Option UrlFault :=
      if i.kind = .url then
        match Url.parse i.value with
        | .error e => some e
        | .ok _ => none
      else none
    match urlFault with
    | some e =>
      .error ((Fault.badValue ("'" ++ i.value ++ "' is not a valid URL") field).withSource e.text)
    | none =>
      if i.filename.isSome && i.kind ≠ .dataone then
        .error (.badValue
          ("'filename' is only supported for dataone inputs, not " ++ i.kind.text) field)
      else .ok ()

/-- Checks inputs from an index on. -/
def Input.checkFrom (index : Nat) : List Input → Except Fault Unit
  | [] => .ok ()
  | i :: r => do
    i.check index
    checkFrom (index + 1) r

/-- Checks the inputs of a recipe, of which there has to be one. -/
def Input.checkAll (is : List Input) : Except Fault Unit :=
  if is.isEmpty then
    .error (.invalid Code.recipeEmptyInput "at least one input parameter is required"
      (some "input.params"))
  else checkFrom 0 is

/-- Partitions hold one file at least. -/
def Parallel.check (p : Parallel) : Except Fault Unit :=
  match p.partitionSize with
  | some n =>
    if n < 1 then
      .error (.badValue ("partition_size must be at least 1, got " ++ toString n)
        "workflow.parallel.partition_size")
    else .ok ()
  | none => .ok ()

/-- Reads a file that the recipe names. -/
def Files.readNamed (files : Files) (path what : String) : Except Fault String :=
  match files.read path with
  | .ok s => .ok s
  | .error .notFound => .error (.recipeNotFound Code.recipeFileNotFound (what ++ " not found") path)
  | .error e =>
    .error (.invalid Code.recipeGeneric
      ("failed to read " ++ what ++ " " ++ path ++ ": " ++ e.text) none)

/-- Reads and checks the file that a workflow names. Of a text that is no JSON it is not told what is
wrong with it: in the place of the reader's own message stands the constant `syntax`. -/
def WorkflowSection.load (files : Files) (dir : String) : WorkflowSection → Except Fault Workflow
  | .shell file parallel => do
    parallel.check
    let path := Files.join dir file
    let content ← files.readNamed path "shell file"
    let commands := Recipe.parseCommands content
    if commands.isEmpty then
      .error (.invalid Code.recipeNoCommands (file ++ " contains no commands")
        (some "workflow.sh_file"))
    else .ok (.shell ⟨path, commands, parallel⟩)
  | .visualization size file => do
    if size = 0 then
      .error (.badValue "batch_size must be at least 1" "workflow.batch_size")
    else match file with
      | none => .ok (.visualization ⟨size, none, "\x7b\x7d"⟩)
      | some name =>
        let path := Files.join dir name
        let content ← files.readNamed path "visualization config file"
        match Json.parse? content with
        | some v => .ok (.visualization ⟨size, some path, v.compact⟩)
        | none =>
          .error (.invalid Code.recipeInvalidJson (name ++ " is not valid JSON: syntax")
            (some "workflow.config_file"))

namespace Recipe

/-- The name of the document in a recipe's directory. -/
def documentName : String := "meta.yml"

/-- The recipe of a document, with files from a directory. -/
def ofDocument (files : Files) (dir : String) (d : RecipeDocument) : Except Fault Recipe := do
  let id ← deriveId d.name
  Input.checkAll d.inputs
  let workflow ← d.workflow.load files dir
  return ⟨d.name, id, d.image, d.inputs, d.output, workflow, dir⟩

/-- The fault of a document that does not have the form of a recipe. -/
def malformed (m : Misfit) : Fault :=
  .validation Code.recipeInvalidYaml ("invalid recipe configuration: " ++ m.text) none (some m.text)

/-- The recipe of a document's text. -/
def ofText (files : Files) (dir text : String) : Except Fault Recipe := do
  ofDocument files dir (← (RecipeDocument.ofText text).mapError malformed)

/-- The recipe in a directory. -/
def ofDirectory (files : Files) (dir : String) : Except Fault Recipe :=
  match files.read (Files.join dir documentName) with
  | .ok text => ofText files dir text
  | .error _ =>
    .error (.recipeNotFound Code.recipeDirNotFound "Recipe directory not found or has no meta.yml"
      dir)

end Recipe

end RecipeFlow
