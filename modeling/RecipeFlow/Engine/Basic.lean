import RecipeFlow.Engine.Config
import RecipeFlow.Engine.Execution
import RecipeFlow.Fault.Basic
import RecipeFlow.Graph.Basic

/-! Engines: what runs graphs. -/
namespace RecipeFlow

/-- What an engine does on each call; it may change the state around it. -/
structure Engine (σ : Type) where
  /-- Takes a graph and may name the execution. -/
  submit : Graph → EngineConfig → σ → Except Fault (Option String) × σ
  /-- Tells the state of an execution, if it knows it. -/
  find : String → EngineConfig → σ → Except Fault (Option Execution) × σ
  delete : String → EngineConfig → σ → Except Fault Unit × σ

namespace Engine

/-- An engine beside a state of something else. -/
def beside {σ τ : Type} (e : Engine σ) : Engine (σ × τ) where
  submit g c s := let (a, t) := e.submit g c s.1; (a, t, s.2)
  find n c s := let (a, t) := e.find n c s.1; (a, t, s.2)
  delete n c s := let (a, t) := e.delete n c s.1; (a, t, s.2)

end Engine

end RecipeFlow
