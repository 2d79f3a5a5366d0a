import RecipeFlow.Fault.Basic

/-! Recipe names and the identifiers derived from them. -/
namespace RecipeFlow.Recipe

/-- The characters a name may hold. -/
def isNameChar (c : Char) : Bool :=
  Text.isAsciiLetter c || Text.isDigit c || c == ' ' || c == '.' || c == '-'

/-- The characters an identifier may hold. -/
def isIdChar (c : Char) : Bool :=
  ('a' ≤ c && c ≤ 'z') || Text.isDigit c || c == '.' || c == '-'

/-- Capitals become small and a space becomes a hyphen. -/
def foldNameChar (c : Char) : Char :=
  if c = ' ' then '-' else Text.lowerAscii c

/-- The identifier that a recipe's name gives to everything the recipe produces. -/
def deriveId (name : String) : Except Fault String :=
  if name.toList.isEmpty || !name.toList.all isNameChar then
    .error (.invalid Code.recipeInvalidName
      ("name '" ++ name ++ "' may only contain letters, digits, spaces, '.' and '-'")
      (some "name"))
  else
    let id := String.ofList (name.toList.map foldNameChar)
    if id.toList.isEmpty || !id.toList.all isIdChar then
      .error (.invalid Code.recipeInvalidName
        ("derived id '" ++ id ++ "' is not a valid resource name") (some "name"))
    else .ok id

end RecipeFlow.Recipe
