import RecipeFlow.Dataset.Node
import RecipeFlow.Engine.Basic
import RecipeFlow.Run.Dialogue

/-! Worlds made of an engine, a resolver of datasets and a clock that only sleeping moves. -/
namespace RecipeFlow

/-- A state and the time since its start. -/
structure Clocked (σ : Type) where
  state : σ
  now : Duration

/-- The world of an engine and a resolver that share a state. -/
def World.ofParts {σ : Type} (e : Engine σ) (r : Dataset.Resolver σ) : World (Clocked σ) where
  answer
    | .submit g c, s => let (a, t) := e.submit g c s.state; (a, { s with state := t })
    | .find n c, s => let (a, t) := e.find n c s.state; (a, { s with state := t })
    | .delete n c, s => let (a, t) := e.delete n c s.state; (a, { s with state := t })
    | .list d, s => let (a, t) := r.list d s.state; (a, { s with state := t })
    | .sleep d, s => ((), { s with now := ⟨s.now.nanos + d.nanos⟩ })
    | .clock, s => (s.now, s)

end RecipeFlow
