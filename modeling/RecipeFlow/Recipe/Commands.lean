import RecipeFlow.Text.Blank

/-! The commands of a shell file. -/
namespace RecipeFlow.Recipe

/-- A line is skipped when it is blank or starts with a number sign. -/
def isSkipped (line : List Char) : Bool :=
  line.all Text.isBlank || line.head? == some '#'

/-- The lines of a shell file that are not skipped, in order. -/
def commandLines (content : List Char) : List (List Char) :=
  (Text.lines content).filter (!isSkipped ·)

/-- The commands of a shell file, in order. -/
def parseCommands (content : String) : List String :=
  (commandLines content.toList).map String.ofList

end RecipeFlow.Recipe
