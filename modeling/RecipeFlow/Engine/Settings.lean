import RecipeFlow.Duration.Text
import RecipeFlow.Engine.Config
import RecipeFlow.Fault.Basic
import RecipeFlow.Files.Basic
import RecipeFlow.Json.Basic
import RecipeFlow.Schema.Misfit
import RecipeFlow.Toml.Read
import RecipeFlow.Url.Parse

/-! Where an engine's settings come from: defaults, then a file, then the environment. -/
namespace RecipeFlow.EngineConfig

/-- The names of the settings in a file. -/
def fieldNames : List String :=
  ["base_url", "namespace", "service_account", "image", "image_pull_policy",
    "workflow_volume_claim", "max_parallelism", "request_timeout", "archive_workflows"]

/-- What a value is called when another is asked for. A number that no type holds has no name. -/
def found? : Toml → Option Found
  | .string s => some (.text s)
  | .integer i =>
    if -(Nat.pow 2 63) ≤ i && i < Nat.pow 2 64 then some (.int i)
    else some (.wide i (i < Nat.pow 2 127))
  | .float x => some (.float x)
  | .outOfRange => none
  | .boolean b => some (.bool b)
  | .array _ => some .sequence
  | .moment | .table _ => some .map

/-- The misfit of a value of another type. -/
def mistyped (v : Toml) (expected : String) : Misfit :=
  match found? v with
  | some f => .wrongType f expected
  | none => .syntaxError

def asText : Toml → Except Misfit String
  | .string s => .ok s
  | v => .error (mistyped v "a string")

def asBool : Toml → Except Misfit Bool
  | .boolean b => .ok b
  | v => .error (mistyped v "a boolean")

/-- A whole number of 32 bits without sign. -/
def asCount : Toml → Except Misfit Nat
  | .integer i =>
    if 0 ≤ i && i < Nat.pow 2 32 then .ok i.toNat
    else if -(Nat.pow 2 63) ≤ i && i < Nat.pow 2 64 then .error (.wrongValue (.int i) "u32")
    else .error (mistyped (.integer i) "u32")
  | v => .error (mistyped v "u32")

def asDuration : Toml → Except Misfit Duration
  | .string s =>
    match Duration.parse? s with
    | some d => .ok d
    | none => .error (.wrongValue (.text s) "a duration")
  | v => .error (mistyped v "a duration")

/-- Sets one field. -/
def setField (c : EngineConfig) (name : String) (v : Toml) : Except Misfit EngineConfig :=
  match name with
  | "base_url" => (asText v).map fun s => { c with baseUrl := s }
  | "namespace" => (asText v).map fun s => { c with space := s }
  | "service_account" => (asText v).map fun s => { c with serviceAccount := s }
  | "image" => (asText v).map fun s => { c with image := s }
  | "image_pull_policy" => (asText v).map fun s => { c with imagePullPolicy := s }
  | "workflow_volume_claim" => (asText v).map fun s => { c with volumeClaim := s }
  | "max_parallelism" => (asCount v).map fun n => { c with maxParallelism := n }
  | "request_timeout" => (asDuration v).map fun d => { c with requestTimeout := d }
  | "archive_workflows" => (asBool v).map fun b => { c with archive := b }
  | _ => .error (.unknownField name fieldNames)

/-- The settings of a document; a field that is missing keeps its default. -/
def ofTable (t : Table Toml) : Except Misfit EngineConfig :=
  t.foldlM (fun c (name, v) => setField c name v) {}

/-- The fault of a document with a misfit. -/
def malformed (m : Misfit) : Fault :=
  .config Code.configInvalidToml ("invalid engine config: " ++ m.text) none

/-- The settings that a file's text holds. -/
def ofText (s : String) : Except Fault EngineConfig :=
  match Toml.parse? s with
  | none => .error (malformed .syntaxError)
  | some t => (ofTable t).mapError malformed

/-- The settings in a file. -/
def ofFile (files : Files) (path : String) : Except Fault EngineConfig :=
  match files.read path with
  | .ok s => ofText s
  | .error e =>
    .error (.config Code.configNotFound ("cannot read engine config " ++ path) (some e.text))

/-- What the names of all variables start with. -/
def variableStem : String := "RECIPE_RUNNER_"

/-- The rest of the names of all variables. -/
def variableNames : List String :=
  ["ENGINE_URL", "NAMESPACE", "SERVICE_ACCOUNT", "IMAGE", "IMAGE_PULL_POLICY", "WORKFLOW_PVC",
    "MAX_PARALLELISM", "REQUEST_TIMEOUT", "ARCHIVE_WORKFLOWS"]

/-- The fault of a variable whose text cannot be read. -/
def unreadable (name value expected : String) : Fault :=
  .invalidSetting (variableStem ++ name ++ "='" ++ value ++ "': " ++ expected)

/-- A whole number of 32 bits, which a plus sign may precede. -/
def count? (s : String) : Option Nat :=
  let ds := match s.toList with
    | '+' :: r => r
    | cs => cs
  (Text.digits? 10 ds).filter (· < Nat.pow 2 32)

def truth? (s : String) : Option Bool :=
  if s = "true" then some true else if s = "false" then some false else none

/-- Reads a variable, if it is set, and changes the settings by it. -/
def override {α : Type} (env : String → Option String) (name expected : String)
    (read? : String → Option α) (set : EngineConfig → α → EngineConfig) (c : EngineConfig) :
    Except Fault EngineConfig :=
  match env (variableStem ++ name) with
  | none => .ok c
  | some s =>
    match read? s with
    | some v => .ok (set c v)
    | none => .error (unreadable name s expected)

/-- The settings with the variables of an environment in place of what they name. -/
def withEnvironment (c : EngineConfig) (env : String → Option String) :
    Except Fault EngineConfig := do
  let c ← override env "ENGINE_URL" "" some (fun c s => { c with baseUrl := s }) c
  let c ← override env "NAMESPACE" "" some (fun c s => { c with space := s }) c
  let c ← override env "SERVICE_ACCOUNT" "" some (fun c s => { c with serviceAccount := s }) c
  let c ← override env "IMAGE" "" some (fun c s => { c with image := s }) c
  let c ← override env "IMAGE_PULL_POLICY" "" some (fun c s => { c with imagePullPolicy := s }) c
  let c ← override env "WORKFLOW_PVC" "" some (fun c s => { c with volumeClaim := s }) c
  let c ← override env "MAX_PARALLELISM" "expected a positive integer" count?
    (fun c n => { c with maxParallelism := n }) c
  let c ← override env "REQUEST_TIMEOUT" "expected a duration like 30s" Duration.parse?
    (fun c d => { c with requestTimeout := d }) c
  override env "ARCHIVE_WORKFLOWS" "expected true or false" truth?
    (fun c b => { c with archive := b }) c

/-- The first thing that is wrong with the settings. -/
def validate (c : EngineConfig) : Except Fault Unit :=
  if Text.isBlankText c.baseUrl then .error (.invalidSetting "base_url must not be empty")
  else match Url.parse c.baseUrl with
    | .error e =>
      .error (.invalidSetting ("base_url '" ++ c.baseUrl ++ "' is not a URL: " ++ e.text))
    | .ok _ =>
      if Text.isBlankText c.space then .error (.invalidSetting "namespace must not be empty")
      else if c.maxParallelism = 0 then
        .error (.invalidSetting "max_parallelism must be at least 1")
      else .ok ()

/-- The settings as a document. -/
def toJson (c : EngineConfig) : Json :=
  .mk [("base_url", .str c.baseUrl), ("namespace", .str c.space),
    ("service_account", .str c.serviceAccount), ("image", .str c.image),
    ("image_pull_policy", .str c.imagePullPolicy),
    ("workflow_volume_claim", .str c.volumeClaim), ("max_parallelism", .int c.maxParallelism),
    ("request_timeout", .str c.requestTimeout.text), ("archive_workflows", .bool c.archive)]

end RecipeFlow.EngineConfig
