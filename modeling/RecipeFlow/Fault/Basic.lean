import RecipeFlow.Fault.Code
import RecipeFlow.Text.Blank

/-! Faults: each way in which handling a recipe can go wrong. -/
namespace RecipeFlow

/-- One fault, with the code it is reported under and the cause it was raised from, if any. -/
inductive Fault where
  | config (code : Nat) (message : String) (source : Option String)
  | validation (code : Nat) (message : String) (field : Option String) (source : Option String)
  | recipeNotFound (code : Nat) (message : String) (path : String)
  | unsupportedInput (code : Nat) (inputType : String) (value : String)
  | alreadyPublished (code : Nat) (recipeId : String)
  | submission (code : Nat) (message : String) (source : Option String)
  | execution (code : Nat) (message : String) (workflow : Option String)
  | resolution (code : Nat) (message : String) (source : Option String)
  | engine (code : Nat) (message : String) (source : Option String)
  deriving DecidableEq, Repr, Inhabited

namespace Fault

/-- An invalid recipe, with the field at fault. -/
def invalid (code : Nat) (message : String) (field : Option String) : Fault :=
  .validation code message field none

/-- An invalid engine configuration value. -/
def invalidSetting (message : String) : Fault :=
  .config Code.configInvalidValue message none

/-- An input whose kind cannot be fetched. -/
def unsupported (inputType value : String) : Fault :=
  .unsupportedInput Code.unsupportedInput inputType value

/-- A destination that already holds the recipe's data. -/
def published (recipeId : String) : Fault :=
  .alreadyPublished Code.alreadyPublished recipeId

/-- A request that the engine did not answer as it should. -/
def transport (message : String) : Fault :=
  .engine Code.transport message none

def code : Fault → Nat
  | config c .. | validation c .. | recipeNotFound c .. | unsupportedInput c .. => c
  | alreadyPublished c .. | submission c .. | execution c .. | resolution c .. | engine c .. => c

/-- The exit status of a program that ends with the fault. -/
def exitCode : Fault → Nat
  | config .. => 2
  | validation .. | recipeNotFound .. => 3
  | unsupportedInput .. => 4
  | alreadyPublished .. => 5
  | submission .. | engine .. => 6
  | execution .. => 7
  | resolution .. => 8

/-- The recipe field at fault. -/
def field? : Fault → Option String
  | validation _ _ f _ => f
  | _ => none

/-- The execution to inspect on the engine's side. -/
def workflow? : Fault → Option String
  | execution _ _ w => w
  | _ => none

/-- The cause the fault was raised from. -/
def source? : Fault → Option String
  | config _ _ s | validation _ _ _ s | submission _ _ s | resolution _ _ s | engine _ _ s => s
  | _ => none

/-- Records a cause, for the kinds of fault that keep one. -/
def withSource (source : String) : Fault → Fault
  | config c m _ => .config c m (some source)
  | validation c m f _ => .validation c m f (some source)
  | submission c m _ => .submission c m (some source)
  | resolution c m _ => .resolution c m (some source)
  | engine c m _ => .engine c m (some source)
  | f => f

/-- Appends context to the message of a fault that has one. -/
def withContext (context : String) : Fault → Fault
  | config c m s => .config c (m ++ ": " ++ context) s
  | validation c m f s => .validation c (m ++ ": " ++ context) f s
  | recipeNotFound c m p => .recipeNotFound c (m ++ ": " ++ context) p
  | submission c m s => .submission c (m ++ ": " ++ context) s
  | execution c m w => .execution c (m ++ ": " ++ context) w
  | resolution c m s => .resolution c (m ++ ": " ++ context) s
  | engine c m s => .engine c (m ++ ": " ++ context) s
  | f => f

/-- The text after the code. -/
def body : Fault → String
  | config _ m _ => "Configuration error: " ++ m
  | validation _ m _ _ => "Invalid recipe: " ++ m
  | recipeNotFound _ m p => m ++ ": " ++ p
  | unsupportedInput _ t v => "Unsupported input type '" ++ t ++ "' for parameter " ++ v
  | alreadyPublished _ i => "Data for recipe " ++ i ++ " have already been published"
  | submission _ m _ => "Workflow submission failed: " ++ m
  | execution _ m _ => "Workflow execution failed: " ++ m
  | resolution _ m _ => "Dataset resolution failed: " ++ m
  | engine _ m _ => "Engine error: " ++ m

/-- The report of a fault: its code in four digits and its text. -/
def message (f : Fault) : String :=
  "[E" ++ Text.padded 4 f.code ++ "] " ++ f.body

end Fault

end RecipeFlow
