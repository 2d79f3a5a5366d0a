import RecipeFlow.Engine.Basic
import RecipeFlow.Publish.Graphs

/-! An engine that is simulated: executions go through phases as they are told to, and a set of
directories stands for the shared volume. -/
namespace RecipeFlow

/-- What happens to a graph that is submitted. -/
inductive Reception where
  | named
  /-- It is taken, but the execution gets no name. -/
  | unnamed
  | rejected
  deriving DecidableEq, Repr, Inhabited

/-- What the next graph with a certain name is to meet. -/
structure Expectation where
  /-- What the graph's name starts with. -/
  stem : String
  reception : Reception
  /-- The phases that looks at the execution see in turn. -/
  phases : List Phase
  deriving DecidableEq, Repr

structure SimulatedExecution where
  /-- The phases that are still to be seen. -/
  ahead : List Phase
  /-- The phase that is seen from then on. -/
  last : Phase
  outputs : Table (Table String)
  deriving DecidableEq, Repr

/-- A call that was made. -/
inductive EngineCall where
  | submit (generateName : String)
  | find (name : String)
  | delete (name : String)
  deriving DecidableEq, Repr

structure SimulatedEngine where
  expectations : List Expectation := []
  executions : Table SimulatedExecution := []
  calls : List EngineCall := []
  submitted : List Graph := []
  /-- The directories of the shared volume that hold data. -/
  volume : List String := []
  failDeletes : Bool := false
  /-- How many executions have been named. -/
  counter : Nat := 0

namespace SimulatedEngine

/-- Puts data into a directory. -/
def seed (id : String) (s : SimulatedEngine) : SimulatedEngine :=
  if s.volume.contains id then s else { s with volume := s.volume ++ [id] }

def isPublished (id : String) (s : SimulatedEngine) : Bool :=
  s.volume.contains id

/-- Adds an expectation after those that are there. -/
def expect (e : Expectation) (s : SimulatedEngine) : SimulatedEngine :=
  { s with expectations := s.expectations ++ [e] }

/-- The recipe that a graph belongs to. -/
def recipeOf (g : Graph) : String :=
  (Table.find? ShellWorkflow.recipeLabel g.labels).getD ""

/-- The directories that the tasks of a graph publish to. -/
def published (g : Graph) : List String :=
  g.tasks.flatMap fun t => t.container.mounts.filterMap Mount.subPath

/-- What a run of a graph outputs. -/
def outputsOf (g : Graph) (s : SimulatedEngine) : Table (Table String) :=
  if (g.task? Publish.checkName).isSome then
    [(Publish.checkName,
      [(Publish.answerParameter, if s.isPublished (recipeOf g) then "yes" else "no")])]
  else []

/-- What a run of a graph does to the volume: clearing comes before publishing. -/
def applyEffects (g : Graph) (s : SimulatedEngine) : SimulatedEngine :=
  let s := if (g.task? Publish.clearName).isSome then
    { s with volume := s.volume.filter (· ≠ recipeOf g) } else s
  (published g).foldl (fun s id => s.seed id) s

/-- Takes the first expectation that a name fits out of a list. -/
def takeFirst (generateName : String) : List Expectation → Option Expectation × List Expectation
  | [] => (none, [])
  | e :: r =>
    if e.stem.toList.isPrefixOf generateName.toList then (some e, r)
    else
      let (found, r) := takeFirst generateName r
      (found, e :: r)

/-- Starts an execution. It acts at once if its last phase is a success. -/
def start (g : Graph) (phases : List Phase) (s : SimulatedEngine) : String × SimulatedEngine :=
  let count := s.counter + 1
  let name := g.generateName ++ Text.padded 5 count
  let last := phases.getLast?.getD .succeeded
  let outputs := if last = .succeeded then outputsOf g s else []
  let s := if last = .succeeded then applyEffects g s else s
  (name, { s with
    counter := count, executions := Table.insert name ⟨phases, last, outputs⟩ s.executions })

/-- Takes a graph as it is expected to; a graph that is not expected succeeds at once. -/
def submit (g : Graph) (s : SimulatedEngine) : Except Fault (Option String) × SimulatedEngine :=
  let (found, rest) := takeFirst g.generateName s.expectations
  let s := { s with
    calls := s.calls ++ [.submit g.generateName], submitted := s.submitted ++ [g],
    expectations := rest }
  let e := found.getD ⟨"", .named, [.succeeded]⟩
  match e.reception with
  | .rejected =>
    (.error (.submission Code.submissionFailed "mock engine rejected the workflow" none), s)
  | .unnamed => (.ok none, s)
  | .named =>
    let (name, s) := start g e.phases s
    (.ok (some name), s)

/-- Shows the next phase of an execution; outputs are shown when it has ended. -/
def find (name : String) (s : SimulatedEngine) :
    Except Fault (Option Execution) × SimulatedEngine :=
  let s := { s with calls := s.calls ++ [.find name] }
  match Table.find? name s.executions with
  | none => (.ok none, s)
  | some e =>
    let phase := e.ahead.head?.getD e.last
    (.ok (some ⟨name, some phase, if phase.isTerminal then e.outputs else []⟩),
      { s with executions := Table.insert name { e with ahead := e.ahead.drop 1 } s.executions })

/-- Drops an execution, if deletions do not fail. -/
def delete (name : String) (s : SimulatedEngine) : Except Fault Unit × SimulatedEngine :=
  let s := { s with calls := s.calls ++ [.delete name] }
  if s.failDeletes then
    (.error (.transport ("mock engine failed to delete " ++ name)), s)
  else (.ok (), { s with executions := s.executions.filter (·.1 ≠ name) })

/-- The simulated engine as an engine, which has no use for settings. -/
def engine : Engine SimulatedEngine where
  submit g _ s := s.submit g
  find name _ s := s.find name
  delete name _ s := s.delete name

end SimulatedEngine

end RecipeFlow
