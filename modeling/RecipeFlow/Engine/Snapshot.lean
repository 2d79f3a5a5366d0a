import RecipeFlow.Engine.Execution
import RecipeFlow.Json.Basic

/-! Snapshots of executions as JSON documents. -/
namespace RecipeFlow.Execution

/-- The text of a string value. -/
def text? : Json → Option String
  | .str s => some s
  | _ => none

/-- The values of one task's parameters. -/
def parameters? : Json → Option (Table String)
  | .obj ms => ms.mapM fun (k, v) => (text? v).map (k, ·)
  | _ => none

/-- The values of all tasks' parameters. -/
def outputs? : Json → Option (Table (Table String))
  | .obj ms => ms.mapM fun (k, v) => (parameters? v).map (k, ·)
  | _ => none

/-- A phase that may be null. -/
def phaseOrNull? : Json → Option (Option Phase)
  | .null => some none
  | .str s => some (some (.ofString s))
  | _ => none

/-- The snapshot that a document holds: an object with a name, or the fields in their order. -/
def ofJson? : Json → Option Execution
  | .arr [n, p] => do return ⟨← text? n, ← phaseOrNull? p, []⟩
  | .arr [n, p, o] => do return ⟨← text? n, ← phaseOrNull? p, ← outputs? o⟩
  | v@(.obj _) => do
    let name ← text? (← v.get? "name")
    let phase ← phaseOrNull? ((v.get? "phase").getD .null)
    let outputs ← outputs? ((v.get? "outputs").getD (.obj []))
    return ⟨name, phase, outputs⟩
  | _ => none

/-- The document of a snapshot. -/
def toJson (e : Execution) : Json :=
  .mk [("name", .str e.name), ("phase", .ofOption (e.phase?.map Phase.text)),
    ("outputs", .mk (e.outputs.map fun (k, ps) =>
      (k, .mk (ps.map fun (p, v) => (p, .str v)))))]

end RecipeFlow.Execution
