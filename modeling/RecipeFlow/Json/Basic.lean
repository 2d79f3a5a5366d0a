import RecipeFlow.Number.Binary64
import RecipeFlow.Table

/-! Values of JSON documents. The members of an object are kept in the order of their names. -/
namespace RecipeFlow

/-- A JSON value; whole numbers of 64 bits are kept apart from binary fractions. -/
inductive Json where
  | null
  | bool (b : Bool)
  | int (i : Int)
  | float (x : Binary64)
  | str (s : String)
  | arr (items : List Json)
  | obj (members : List (String × Json))
  deriving Inhabited, Repr

namespace Json

/-- An object with the given members; of two with one name the last counts. -/
def mk (ms : List (String × Json)) : Json :=
  .obj (Table.ofList ms)

/-- The texts as an array. -/
def strings (ss : List String) : Json :=
  .arr (ss.map .str)

/-- The members of an object, none for any other value. -/
def members : Json → List (String × Json)
  | obj ms => ms
  | _ => []

/-- The member of the given name. -/
def get? (v : Json) (k : String) : Option Json :=
  Table.find? k v.members

/-- The text or null. -/
def ofOption : Option String → Json
  | none => .null
  | some s => .str s

end Json

end RecipeFlow
