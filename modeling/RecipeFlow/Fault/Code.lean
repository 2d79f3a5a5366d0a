/-! The numbers faults are reported under: 1xxx configuration, 2xxx recipes, 3xxx compilation,
4xxx publication, 5xxx the engine, 6xxx datasets. -/
namespace RecipeFlow.Code

def configGeneric : Nat := 1000
def configNotFound : Nat := 1001
def configInvalidToml : Nat := 1002
def configInvalidValue : Nat := 1003

def recipeGeneric : Nat := 2000
def recipeDirNotFound : Nat := 2001
def recipeFileNotFound : Nat := 2002
def recipeInvalidYaml : Nat := 2003
def recipeInvalidName : Nat := 2004
def recipeEmptyInput : Nat := 2005
def recipeInvalidValue : Nat := 2006
def recipeInvalidJson : Nat := 2007
def recipeNoCommands : Nat := 2008
def recipeUnsupportedOutput : Nat := 2009

def unsupportedInput : Nat := 3001
def emptyPartitionInput : Nat := 3002
def duplicateFilename : Nat := 3003

def alreadyPublished : Nat := 4001

def submissionFailed : Nat := 5001
def noHandle : Nat := 5002
def executionFailed : Nat := 5003
def timedOut : Nat := 5004
def missingOutput : Nat := 5005
def transport : Nat := 5006

def noObjects : Nat := 6001
def noMatch : Nat := 6002
def unresolved : Nat := 6003
def resolutionRequestFailed : Nat := 6004

/-- What a code stands for, in words. -/
def describe : Nat → String
  | 1000 => "Generic configuration error"
  | 1001 => "Configuration file not found"
  | 1002 => "Invalid TOML in configuration file"
  | 1003 => "Invalid configuration value"
  | 2000 => "Generic recipe error"
  | 2001 => "Recipe directory not found"
  | 2002 => "File referenced by recipe not found"
  | 2003 => "Invalid YAML in recipe configuration"
  | 2004 => "Recipe name contains invalid characters"
  | 2005 => "Recipe has no input parameters"
  | 2006 => "Invalid recipe value"
  | 2007 => "Invalid JSON in visualization config"
  | 2008 => "Shell file contains no commands"
  | 2009 => "Output type not supported for this workflow"
  | 3001 => "Unsupported input type"
  | 3002 => "No files to partition"
  | 3003 => "Two inputs share a file name"
  | 4001 => "Data already published"
  | 5000 => "Generic engine error"
  | 5001 => "Workflow submission failed"
  | 5002 => "Engine returned no workflow name"
  | 5003 => "Workflow execution failed"
  | 5004 => "Timed out waiting for workflow"
  | 5005 => "Workflow output missing"
  | 5006 => "Engine request failed"
  | 6000 => "Generic dataset resolution error"
  | 6001 => "Dataset contains no objects"
  | 6002 => "No dataset objects match filename pattern"
  | 6003 => "Dataset input has not been resolved"
  | 6004 => "Dataset resolution request failed"
  | _ => "Unknown error code"

end RecipeFlow.Code
