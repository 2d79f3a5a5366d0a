import RecipeFlow.Json.Basic
import RecipeFlow.Proofs.Table

/-! Looking into JSON documents along member names. -/
namespace RecipeFlow.Json

variable {k j : String} {ms ns : List (String × Json)} {v : Json} {path : List String}

/-- The value at the end of a path of member names. -/
def at? (v : Json) : List String → Option Json
  | [] => some v
  | k :: path => (v.get? k).bind fun u => u.at? path

/-- The items of the array at the end of a path; none if there is no array. -/
def items (v : Json) (path : List String) : List Json :=
  match v.at? path with
  | some (.arr vs) => vs
  | _ => []

/-- The text under a name. -/
def text? (v : Json) (k : String) : Option String :=
  match v.get? k with
  | some (.str s) => some s
  | _ => none

/-- The names of the items of an array. -/
def names (v : Json) (path : List String) : List (Option String) :=
  (v.items path).map fun u => u.text? "name"

theorem get?_mk : (mk ms).get? k = Table.lastValue? k ms :=
  Table.find?_ofList

theorem text?_mk : (mk ms).text? k = match Table.lastValue? k ms with
    | some (.str s) => some s
    | _ => none := by
  rw [text?, get?_mk]

@[simp] theorem items_arr (vs : List Json) : (arr vs).items [] = vs := rfl

theorem items_cons (v : Json) (k : String) (path : List String) :
    v.items (k :: path) = match v.get? k with
      | some u => u.items path
      | none => [] := by
  rw [items, at?]
  cases v.get? k with
  | none => rfl
  | some u => rfl

end RecipeFlow.Json
