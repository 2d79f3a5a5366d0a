/-! Tables: values under text keys, kept in the order of the keys. -/
namespace RecipeFlow

/-- Keys with their values; `Table.insert` keeps the keys ascending and apart. -/
abbrev Table (α : Type) := List (String × α)

namespace Table

variable {α : Type}

/-- Puts a value under a key, instead of one that is there. -/
def insert (k : String) (v : α) : Table α → Table α
  | [] => [(k, v)]
  | (k', v') :: r =>
    if k = k' then (k, v) :: r
    else if k < k' then (k, v) :: (k', v') :: r
    else (k', v') :: insert k v r

/-- The value under a key. -/
def find? (k : String) : Table α → Option α
  | [] => none
  | (k', v) :: r => if k = k' then some v else find? k r

/-- The table of some pairs; of two with one key the last counts. -/
def ofList (ps : List (String × α)) : Table α :=
  ps.foldl (fun t p => insert p.1 p.2 t) []

end Table

end RecipeFlow
