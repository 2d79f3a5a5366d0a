import RecipeFlow.Duration.Basic
import RecipeFlow.Engine.Config
import RecipeFlow.Engine.Execution
import RecipeFlow.Fault.Basic
import RecipeFlow.Graph.Basic
import RecipeFlow.Recipe.Basic

/-! Dialogues: programs that ask the world around them, where each answer decides what comes next. -/
namespace RecipeFlow

/-- What a program may ask for. -/
inductive Query where
  /-- Ask the engine to run a graph. -/
  | submit (graph : Graph) (config : EngineConfig)
  /-- Ask the engine for the state of an execution. -/
  | find (name : String) (config : EngineConfig)
  /-- Ask the engine to drop an execution. -/
  | delete (name : String) (config : EngineConfig)
  /-- Ask for the files of a dataset. -/
  | list (dataset : String)
  | sleep (time : Duration)
  /-- Ask how much time has passed since some fixed moment. -/
  | clock

/-- What the answer to a query is. An engine may take a graph without naming the execution, and may
not know an execution that it is asked for. -/
abbrev Query.Answer : Query → Type
  | submit .. => Except Fault (Option String)
  | find .. => Except Fault (Option Execution)
  | delete .. => Except Fault Unit
  | list _ => Except Fault (List DataObject)
  | sleep _ => Unit
  | clock => Duration

/-- A program that has ended, or that asks and goes on with the answer. -/
inductive Dialogue (α : Type) where
  | done (a : α)
  | failed (f : Fault)
  /-- More was asked than the program may ask. -/
  | stalled
  | ask (q : Query) (next : q.Answer → Dialogue α)

namespace Dialogue

/-- Goes on with a result. -/
def bind {α β : Type} : Dialogue α → (α → Dialogue β) → Dialogue β
  | done a, k => k a
  | failed f, _ => failed f
  | stalled, _ => stalled
  | ask q next, k => ask q fun a => (next a).bind k

instance : Monad Dialogue where
  pure := done
  bind := bind

/-- Changes the fault that a program ends with. -/
def mapFault {α : Type} (g : Fault → Fault) : Dialogue α → Dialogue α
  | done a => done a
  | failed f => failed (g f)
  | stalled => stalled
  | ask q next => ask q fun a => (next a).mapFault g

/-- A program that has a result without asking. -/
def ofExcept {α : Type} : Except Fault α → Dialogue α
  | .ok a => done a
  | .error f => failed f

/-- Submits a graph. -/
def submit (g : Graph) (c : EngineConfig) : Dialogue (Option String) := ask (.submit g c) ofExcept

/-- Asks for the state of an execution. -/
def find (name : String) (c : EngineConfig) : Dialogue (Option Execution) :=
  ask (.find name c) ofExcept

/-- Drops an execution, if that can be done. -/
def discard (name : String) (c : EngineConfig) : Dialogue Unit :=
  ask (.delete name c) fun _ => done ()

/-- Asks for the files of a dataset. -/
def list (dataset : String) : Dialogue (List DataObject) := ask (.list dataset) ofExcept

def sleep (time : Duration) : Dialogue Unit := ask (.sleep time) done

def clock : Dialogue Duration := ask .clock done

end Dialogue

/-- How a program has ended. -/
inductive Outcome (α : Type) where
  | done (a : α)
  | failed (f : Fault)
  | stalled
  deriving DecidableEq, Repr

/-- A world that answers queries; each answer may change its state. -/
structure World (σ : Type) where
  answer : (q : Query) → σ → q.Answer × σ

/-- Runs a program in a world. -/
def Dialogue.run {α σ : Type} (w : World σ) : Dialogue α → σ → Outcome α × σ
  | done a, s => (.done a, s)
  | failed f, s => (.failed f, s)
  | stalled, s => (.stalled, s)
  | ask q next, s => (next (w.answer q s).1).run w (w.answer q s).2

end RecipeFlow
