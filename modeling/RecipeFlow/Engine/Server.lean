import RecipeFlow.Engine.Basic
import RecipeFlow.Engine.Manifest
import RecipeFlow.Http.Basic

/-! An engine that is reached over a network: it holds executions as resources under their names. -/
namespace RecipeFlow.Server

/-- Where executions are created. -/
def workflowsUrl (c : EngineConfig) : String :=
  Text.trimSlashes c.baseUrl ++ "/api/v1/workflows/" ++ c.space

/-- Where one execution is found. -/
def workflowUrl (c : EngineConfig) (name : String) : String :=
  workflowsUrl c ++ "/" ++ name

/-! Resources. -/

/-- One step of an execution, as a resource shows it. -/
structure Step where
  task : Option String
  /-- The names and values of its output parameters; none if it shows no outputs. -/
  parameters : Option (List (String × Option String))
  deriving DecidableEq, Repr, Inhabited

/-- What a resource shows of an execution's state. -/
structure Progress where
  phase : Option String
  /-- The steps, in the order in which they are visited. -/
  steps : List Step
  deriving DecidableEq, Repr, Inhabited

/-- An execution as the server shows it. -/
structure Resource where
  name : Option String
  progress : Option Progress
  deriving DecidableEq, Repr, Inhabited

/-- Adds the values of a step's parameters to those of its task. -/
def addStep (outputs : Table (Table String)) (s : Step) : Table (Table String) :=
  match s.task, s.parameters with
  | some task, some ps =>
    let old := (Table.find? task outputs).getD []
    let set (t : Table String) (p : String × Option String) : Table String :=
      match p.2 with
      | some v => Table.insert p.1 v t
      | none => t
    Table.insert task (ps.foldl set old) outputs
  | _, _ => outputs

/-- The snapshot in a resource that was asked for by a name. -/
def Resource.execution (r : Resource) (requested : String) : Execution :=
  let name := r.name.getD requested
  match r.progress with
  | none => ⟨name, none, []⟩
  | some p => ⟨name, p.phase.map Phase.ofString, p.steps.foldl addStep []⟩

/-! Reading resources. -/

/-- A member that may be absent. -/
def member {α : Type} (k : String) (absent : α) (read? : Json → Option α) (v : Json) : Option α :=
  match v with
  | .obj _ =>
    match v.get? k with
    | some m => read? m
    | none => some absent
  | _ => none

def text? : Json → Option String
  | .str s => some s
  | _ => none

/-- Null, or what a reader takes. -/
def nullable {α : Type} (read? : Json → Option α) : Json → Option (Option α)
  | .null => some none
  | v => (read? v).map some

def list? {α : Type} (read? : Json → Option α) : Json → Option (List α)
  | .arr vs => vs.mapM read?
  | _ => none

def parameter? (v : Json) : Option (String × Option String) := do
  return (← text? (← v.get? "name"), ← member "value" none (nullable text?) v)

def step? (v : Json) : Option Step := do
  let task ← member "displayName" none (nullable text?) v
  let parameters ← member "outputs" none
    (nullable (member "parameters" [] (list? parameter?))) v
  return ⟨task, parameters⟩

def progress? (v : Json) : Option Progress := do
  let phase ← member "phase" none (nullable text?) v
  let steps ← member "nodes" [] (fun
    | .obj ms => ms.mapM fun m => step? m.2
    | _ => none) v
  return ⟨phase, steps⟩

def resource? (v : Json) : Option Resource := do
  let name ← member "metadata" none (member "name" none (nullable text?)) v
  return ⟨name, ← member "status" none (nullable progress?) v⟩

/-! Requests. -/

/-- The fault of a graph that was not taken. -/
def refused (message : String) : Fault :=
  .submission Code.submissionFailed message none

/-- The fault of a request that failed. -/
def failed (f : Http.Failure) : Fault :=
  (Fault.transport ("request failed: " ++ f.text)).withSource f.text

/-- What the server is sent to run a graph. -/
def submission (g : Graph) (c : EngineConfig) : Json :=
  .mk [("workflow", (Manifest.ofGraph g c).toJson)]

/-- What the answer to a submission says. -/
def readSubmitted (a : Except Http.Failure Http.Response) : Except Fault (Option String) :=
  match a with
  | .error f => .error (refused ("Problem with submitting workflow: " ++ f.text))
  | .ok r =>
    if !r.isSuccess then
      .error (refused
        ("Engine rejected workflow (" ++ Http.statusText r.status ++ "): " ++ r.body))
    else match r.decode resource? with
      | .ok v => .ok v.name
      | .error f => .error (refused ("Unreadable submission response: " ++ f.text))

/-- What the answer to a question for an execution says; status 404 says that there is none. -/
def readFound (name : String) (u : Url) (r : Http.Response) :
    Except Http.Failure (Option Execution) :=
  if r.status = 404 then .ok none
  else do
    let v ← (← r.accepted u).decode resource?
    return some (v.execution name)

/-- What the answer to a deletion says; an execution that is not there needs none. -/
def readDeleted (u : Url) (r : Http.Response) : Except Http.Failure Unit :=
  if r.status = 404 then .ok () else (r.accepted u).map fun _ => ()

/-- Sends a request for an execution and reads the answer. -/
def call {α ν : Type} (net : Http.Network ν) (method : Http.Method) (url : String)
    (body : Option Json) (read : Url → Http.Response → Except Http.Failure α) (s : ν) :
    Except Http.Failure α × ν :=
  match Http.locate url with
  | .error f => (.error f, s)
  | .ok u =>
    let (a, s) := net.send ⟨method, u, body⟩ s
    (a.bind (read u), s)

/-- The engine behind a server. -/
def engine {ν : Type} (net : Http.Network ν) : Engine ν where
  submit g c s :=
    let (a, s) := call net .post (workflowsUrl c) (some (submission g c)) (fun _ r => .ok r) s
    (readSubmitted a, s)
  find name c s :=
    let (a, s) := call net .get (workflowUrl c name) none (readFound name) s
    (a.mapError failed, s)
  delete name c s :=
    let (a, s) := call net .delete (workflowUrl c name) none readDeleted s
    (a.mapError failed, s)

end RecipeFlow.Server
