import RecipeFlow.Compile.Shell

/-! Executions that look at published data and remove it. The shared volume can only be reached from
inside a task. -/
namespace RecipeFlow.Publish

def checkName : String := "check-already-published"

def clearName : String := "remove-existing-data"

/-- The parameter that holds the answer of a check. -/
def answerParameter : String := "data-published"

/-- Where both tasks mount the whole shared volume. -/
def volumeRoot : String := "/mnt/"

/-- The file that a check writes its answer to. -/
def answerFile : String := "/tmp/published.txt"

/-- A graph of one task that mounts the whole volume. -/
def singleTask (id suffix name script : String) (parameters : List OutputParameter) : Graph :=
  ((Graph.empty (id ++ suffix)).label ShellWorkflow.recipeLabel id).append name .auxiliary
    [{ name := name
       container := { Container.shell script with
         outputParameters := parameters
         mounts := [⟨volumeRoot, none⟩] } }]

/-- Reports whether a recipe has published data: yes or no. -/
def checkGraph (id : String) : Graph :=
  singleTask id "-check-published-" checkName
    ("test -d " ++ volumeRoot ++ id ++ " && echo \"yes\" > " ++ answerFile ++
      " || echo \"no\" > " ++ answerFile)
    [⟨answerParameter, answerFile⟩]

/-- Removes everything that a recipe has published. -/
def clearGraph (id : String) : Graph :=
  singleTask id "-remove-existing-data-" clearName ("rm -rf " ++ volumeRoot ++ id) []

end RecipeFlow.Publish
