/-! How much a program reports of what it does. -/
namespace RecipeFlow.Cli

/-- The filter of log lines for a number of requests for more of them. -/
def logFilter : Nat → String
  | 0 => "info"
  | 1 => "debug"
  | 2 => "trace"
  | _ => "trace,hyper=debug,reqwest=debug"

end RecipeFlow.Cli
