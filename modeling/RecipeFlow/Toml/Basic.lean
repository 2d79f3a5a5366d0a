import RecipeFlow.Number.Binary64
import RecipeFlow.Table

/-! Values of TOML documents. The members of a table are kept in the order of their keys. -/
namespace RecipeFlow

/-- A TOML value. -/
inductive Toml where
  | string (s : String)
  | integer (i : Int)
  | float (x : Binary64)
  /-- A number that no supported type holds. -/
  | outOfRange
  | boolean (b : Bool)
  /-- A date, a time or both; which one does not matter here. -/
  | moment
  | array (items : List Toml)
  | table (members : List (String × Toml))
  deriving Inhabited, Repr

end RecipeFlow
