import RecipeFlow.Fault.Basic
import RecipeFlow.Glob
import RecipeFlow.Recipe.Basic
import RecipeFlow.Text.Quoted

/-! Which files of a dataset an input asks for. -/
namespace RecipeFlow.Dataset

/-- The files whose names match a pattern, of which there has to be one. -/
def filterByName (objects : List DataObject) (pattern : String) : Except Fault (List DataObject) :=
  match Glob.parse pattern with
  | .error e =>
    .error (.resolution Code.noMatch
      ("invalid filename pattern '" ++ pattern ++ "': " ++ e.text) none)
  | .ok p =>
    let matching := objects.filter fun o => Glob.isMatch p o.filename.toList
    if matching.isEmpty then
      .error (.resolution Code.noMatch
        ("No data objects matching pattern '" ++ pattern ++
          "' found in dataset. Available files: " ++
          Text.quotedList (objects.map DataObject.filename)) none)
    else .ok matching

/-- The files that an input gets of all files in a dataset. -/
def select (dataset : String) (pattern : Option String) (objects : List DataObject) :
    Except Fault (List DataObject) :=
  if objects.isEmpty then
    .error (.resolution Code.noObjects ("No data objects found in dataset " ++ dataset) none)
  else match pattern with
    | some p => filterByName objects p
    | none => .ok objects

end RecipeFlow.Dataset
