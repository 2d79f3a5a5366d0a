import RecipeFlow.Duration.Text
import RecipeFlow.Run.Dialogue

/-! The life of an execution: it is submitted, watched until it ends, and dropped. -/
namespace RecipeFlow

/-- How an execution is watched. -/
structure PollOptions where
  /-- Time before each look at it. -/
  interval : Duration := .ofSeconds 5
  /-- Time after which to give up; one waits forever without it. -/
  deadline : Option Duration := none
  deriving DecidableEq, Repr, Inhabited

namespace Lifecycle

/-- The phase of an execution, which the engine may not know. -/
def phaseOf : Option Execution → Phase
  | some e => e.phase
  | none => .unknown "absent"

/-- Submits a graph, which the engine has to name. -/
def submit (c : EngineConfig) (g : Graph) : Dialogue String := do
  match ← Dialogue.submit g c with
  | some name => pure name
  | none =>
    .failed (.submission Code.noHandle
      ("Problem with submitting workflow " ++ g.generateName ++ ": engine returned no name") none)

/-- The current phase of an execution. -/
def poll (c : EngineConfig) (name : String) : Dialogue Phase := do
  return phaseOf (← Dialogue.find name c)

/-- The fault of an execution that has not succeeded. -/
def failure (name : String) (p : Phase) : Fault :=
  .execution Code.executionFailed ("Workflow " ++ name ++ " finished with phase " ++ p.text)
    (some name)

/-- The fault of an execution that takes too long. -/
def timeout (name : String) (deadline : Duration) : Fault :=
  .execution Code.timedOut ("Workflow " ++ name ++ " timed out after " ++ deadline.messageText)
    (some name)

/-- What a look at an execution decides. -/
inductive Verdict where
  | succeeded (e : Execution)
  | failed (f : Fault)
  | running

/-- Only a success or a failure ends an execution; one that the engine does not know may come. -/
def verdict (name : String) (info : Option Execution) : Verdict :=
  match info with
  | some e =>
    if e.phase = .succeeded then .succeeded e
    else if e.phase.isFailure then .failed (failure name e.phase)
    else .running
  | none => .running

/-- Whether the time since a moment has reached the deadline. -/
def isOver (started now deadline : Duration) : Bool :=
  started.nanos + deadline.nanos ≤ now.nanos

/-- Looks at an execution until it ends, at most so many times. -/
def watch (c : EngineConfig) (name : String) (o : PollOptions) (started : Duration) :
    Nat → Dialogue Execution
  | 0 => .stalled
  | looks + 1 => do
    Dialogue.sleep o.interval
    match verdict name (← Dialogue.find name c) with
    | .succeeded e => pure e
    | .failed f => .failed f
    | .running =>
      match o.deadline with
      | none => watch c name o started looks
      | some d =>
        let now ← Dialogue.clock
        if isOver started now d then .failed (timeout name d) else watch c name o started looks

/-- Waits until an execution has succeeded, with at most so many looks at it. -/
def wait (looks : Nat) (c : EngineConfig) (name : String) (o : PollOptions) :
    Dialogue Execution := do
  watch c name o (← Dialogue.clock) looks

/-- Submits a graph and waits until it has succeeded. -/
def runToCompletion (looks : Nat) (c : EngineConfig) (g : Graph) (o : PollOptions) :
    Dialogue Execution := do
  wait looks c (← submit c g) o

end Lifecycle

end RecipeFlow
