import RecipeFlow.Files.Basic
import RecipeFlow.Table
import RecipeFlow.Text.Blank
import RecipeFlow.Text.Utf8

/-! A tree of files that is held as a value. Nothing else exists beside it. -/
namespace RecipeFlow

/-- A directory or a file, whose text is absent if its bytes are no UTF-8. -/
inductive FileTree where
  | file (text : Option String)
  | directory (entries : List (String × FileTree))
  deriving Inhabited, Repr

namespace FileTree

def empty : FileTree := .directory []

def entries : FileTree → List (String × FileTree)
  | directory es => es
  | file _ => []

/-- The parts of a path between its slashes. -/
def components (path : String) : List String :=
  (Text.split '/' path.toList).map String.ofList

/-- The file of some bytes. -/
def ofBytes (bytes : List UInt8) : FileTree :=
  .file ((Text.decode? bytes).map String.ofList)

/-- Puts a tree at a place; directories on the way are made. A directory put where one is changes
nothing. -/
def insert (t : FileTree) : List String → FileTree → FileTree
  | [], old =>
    match t, old with
    | .directory [], .directory es => .directory es
    | _, _ => t
  | c :: cs, old =>
    .directory (Table.insert c (insert t cs ((Table.find? c old.entries).getD empty)) old.entries)

/-- A place in the tree with the directories above it, innermost first; nothing stands for the
directories outside of the tree. -/
abbrev Place := Option (FileTree × List FileTree)

/-- The place one name further. -/
def step (p : Place) (name : String) : Except ReadFault Place :=
  match p with
  | some (.file _, _) => .error .notDirectory
  | none => if name = "" || name = "." || name = ".." then .ok none else .error .notFound
  | some (t, above) =>
    if name = "" || name = "." then .ok p
    else if name = ".." then
      match above with
      | u :: us => .ok (some (u, us))
      | [] => .ok none
    else if (Text.encode name.toList).length > 255 then .error .nameTooLong
    else match Table.find? name t.entries with
      | some u => .ok (some (u, t :: above))
      | none => .error .notFound

/-- The place that a path leads to. -/
def locate (t : FileTree) (path : String) : Except ReadFault Place :=
  if path.toList.contains '\x00' then .error .badName
  else if path.isEmpty then .error .notFound
  else if (Text.encode path.toList).length ≥ 4096 then .error .nameTooLong
  else
    let start : Place := if path.toList.head? = some '/' then none else some (t, [])
    (components path).foldlM step start

def read (t : FileTree) (path : String) : Except ReadFault String := do
  match ← t.locate path with
  | some (.file (some s), _) => .ok s
  | some (.file none, _) => .error .notText
  | _ => .error .isDirectory

/-- The tree as a file system. -/
def files (t : FileTree) : Files where
  read := t.read
  isFile path :=
    match t.locate path with
    | .ok (some (.file _, _)) => true
    | _ => false
  subdirectories? path :=
    match t.locate path with
    | .ok (some (.directory es, _)) =>
      some (es.filterMap fun (name, u) =>
        match u with
        | .directory _ => some name
        | .file _ => none)
    | .ok none => some []
    | _ => none

end FileTree

end RecipeFlow
