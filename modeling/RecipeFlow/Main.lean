import RecipeFlow.Cli.Run

/-! The program: it looks at the files and variables that the arguments call for, and then does what
is asked for. It has no network, so no request is answered. -/
namespace RecipeFlow.Main

/-- What has been seen of the file system. -/
structure Seen where
  texts : List (String × Except ReadFault String) := []
  directories : List (String × List String) := []

/-- The file system as far as it has been seen. -/
def Seen.files (s : Seen) : Files where
  read path := (s.texts.lookup path).getD (.error .notFound)
  isFile path :=
    match s.texts.lookup path with
    | some (.ok _) | some (.error .notText) => true
    | _ => false
  subdirectories? path := s.directories.lookup path

def readFault : IO.Error → ReadFault
  | .inappropriateType _ code _ =>
    if code = 21 then .isDirectory else .notDirectory
  | .invalidArgument .. => .nameTooLong
  | _ => .notFound

def readText (path : String) : IO (Except ReadFault String) := do
  if path.toList.contains '\x00' then return .error .badName
  try
    let bytes ← IO.FS.readBinFile path
    match Text.decode? bytes.toList with
    | some cs => return .ok (String.ofList cs)
    | none => return .error .notText
  catch e => return .error (readFault e)

/-- Looks at a file. -/
def Seen.look (s : Seen) (path : String) : IO Seen := do
  return { s with texts := (path, ← readText path) :: s.texts }

/-- Looks at the document in a directory and at the file that it names. -/
def Seen.lookAtRecipe (s : Seen) (dir : String) : IO Seen := do
  let path := Files.join dir Recipe.documentName
  let s ← s.look path
  match s.files.read path with
  | .error _ => return s
  | .ok text =>
    match (RecipeDocument.ofText text).toOption.bind (·.workflow.file?) with
    | some file => s.look (Files.join dir file)
    | none => return s

/-- The names of a directory's subdirectories, in ascending order. -/
def subdirectories (root : String) : IO (List String) := do
  let entries ← (← IO.FS.realPath root).readDir
  let names ← entries.toList.filterMapM fun e => do
    if ← e.path.isDir then return some e.fileName else return none
  return names.mergeSort (· ≤ ·)

/-- Looks at all recipes right below a root. -/
def Seen.lookAtRecipes (s : Seen) (root : String) : IO Seen := do
  try
    let names ← subdirectories root
    let s := { s with directories := (root, names) :: s.directories }
    names.foldlM (fun s name => s.lookAtRecipe (Files.join root name)) s
  catch _ => return s

/-- Looks at all that a command may read. -/
def lookFor (i : Cli.Invocation) : IO Seen := do
  let s ← match i.engineConfig with
    | some path => Seen.look {} path
    | none => pure {}
  match i.command with
  | .submit dir _ | .validate dir | .render dir => s.lookAtRecipe dir
  | .validateAll root => s.lookAtRecipes root
  | .status _ => return s

/-- The variables that settings may come from. -/
def environment : IO (String → Option String) := do
  let names := Cli.nodeVariable ::
    EngineConfig.variableNames.map (EngineConfig.variableStem ++ ·)
  let values ← names.mapM fun name => return (name, ← IO.getEnv name)
  return fun name => (values.lookup name).join

/-- Runs a program. Sleeping takes time; nobody answers on the network. -/
def interpret {α : Type} (w : World (Clocked Unit)) : Dialogue α → IO (Outcome α)
  | .done a => return .done a
  | .failed f => return .failed f
  | .stalled => return .stalled
  | .ask (.sleep d) next => do
    IO.sleep (d.nanos / 1000000).toUInt32
    interpret w (next ())
  | .ask .clock next => do
    let now ← IO.monoNanosNow
    interpret w (next ⟨now⟩)
  | .ask q next => interpret w (next (w.answer q ⟨(), ⟨0⟩⟩).1)

/-- How often an execution is looked at before the program gives up. -/
def looks : Nat := 1000000

/-- Does what the arguments ask for. -/
def report (args : List String) : IO Cli.Report := do
  match Cli.parse args with
  | .error stop => return .ofStop stop
  | .ok i =>
    let seen ← lookFor i
    let env ← environment
    let w := Cli.world (Http.Network.silent Unit) env
    let outcome ← interpret w (Cli.perform looks seen.files env i)
    return (Cli.Report.ofOutcome i.verbose outcome).getD ⟨1, "", ""⟩

end RecipeFlow.Main

def main (args : List String) : IO UInt32 := do
  let r ← RecipeFlow.Main.report args
  IO.print r.stdout
  IO.eprint r.stderr
  return r.code.toUInt32
