import RecipeFlow.Table

/-! What an engine reports of an execution. -/
namespace RecipeFlow

/-- How far an execution has come. -/
inductive Phase where
  | pending
  | running
  | succeeded
  | failed
  | error
  /-- Any other report. -/
  | unknown (text : String)
  deriving DecidableEq, Repr, Inhabited

namespace Phase

def ofString (s : String) : Phase :=
  if s = "Pending" then .pending
  else if s = "Running" then .running
  else if s = "Succeeded" then .succeeded
  else if s = "Failed" then .failed
  else if s = "Error" then .error
  else .unknown s

def text : Phase → String
  | pending => "Pending"
  | running => "Running"
  | succeeded => "Succeeded"
  | failed => "Failed"
  | error => "Error"
  | unknown s => s

def isFailure : Phase → Bool
  | failed | error => true
  | _ => false

/-- After a terminal phase there is no other. -/
def isTerminal : Phase → Bool
  | succeeded | failed | error => true
  | _ => false

end Phase

/-- A snapshot of an execution. -/
structure Execution where
  name : String
  phase? : Option Phase
  /-- The values of output parameters, by task and by parameter. -/
  outputs : Table (Table String)
  deriving DecidableEq, Repr, Inhabited

namespace Execution

/-- The phase; one that was not reported is unknown and has no text. -/
def phase (e : Execution) : Phase :=
  e.phase?.getD (.unknown "")

/-- The value of an output parameter of a task. -/
def output? (e : Execution) (task parameter : String) : Option String :=
  (Table.find? task e.outputs).bind (Table.find? parameter)

end Execution

end RecipeFlow
