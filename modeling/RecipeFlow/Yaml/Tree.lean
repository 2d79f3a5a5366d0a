import RecipeFlow.Yaml.Atom

/-! Trees: documents whose scalars have been given their meaning. -/
namespace RecipeFlow.Yaml

/-- A document by its meaning. The atoms are no whole numbers of more than 64 bits. -/
inductive Tree where
  | atom (a : Atom)
  | sequence (items : List Tree)
  | mapping (entries : List (Tree × Tree))
  deriving Repr, Inhabited

namespace Tree

def text (s : String) : Tree := .atom (.text s)

def bool (b : Bool) : Tree := .atom (.bool b)

def natural (n : Nat) : Tree := .atom (.natural n)

/-- A whole number of 64 bits with sign. -/
def int (i : Int) : Tree :=
  .atom (if i < 0 then .signed i else .natural i.toNat)

/-- A mapping with texts as keys. -/
def record (members : List (String × Tree)) : Tree :=
  .mapping (members.map fun (k, v) => (text k, v))

def found : Tree → Found
  | .atom a => a.found
  | .sequence _ => .sequence
  | .mapping _ => .map

/-- The misfit of a tree that stands where something else is asked for. -/
def mistyped (t : Tree) (expected : String) : Misfit :=
  .wrongType t.found expected

end Tree

namespace Node

/-- The misfit of a node that stands where something else is asked for. -/
def mistyped (expected : String) : Node → Misfit
  | .scalar s =>
    match s.atom with
    | .ok a => .wrongType a.found expected
    | .error m => m
  | .sequence .. => .wrongType .sequence expected
  | .mapping .. => .wrongType .map expected
  | .broken => .syntaxError

/-- Whether a node carries a tag of the document's own. -/
def hasLocalTag : Node → Bool
  | .scalar s => s.tag.any isLocalTag
  | .sequence tag _ | .mapping tag _ => tag.any isLocalTag
  | .broken => false

/-- A text, a number or nothing, but no number that 64 bits do not hold. -/
def atomTree (s : Scalar) : Except Misfit Tree := do
  match ← s.atom with
  | .wide i signed => .error (.wrongType (.wide i signed) "any value")
  | a => .ok (.atom a)

mutual

/-- The tree of a node. Tags of the document's own have no meaning. -/
def tree : Node → Except Misfit Tree
  | .scalar s => if s.tag.any isLocalTag then .error .syntaxError else atomTree s
  | .sequence tag items =>
    if tag.any isLocalTag then .error .syntaxError else (treeItems items).map .sequence
  | .mapping tag entries =>
    if tag.any isLocalTag then .error .syntaxError else (treeEntries entries).map .mapping
  | .broken => .error .syntaxError

def treeItems : List Node → Except Misfit (List Tree)
  | [] => .ok []
  | n :: r => do return (← tree n) :: (← treeItems r)

def treeEntries : List (Node × Node) → Except Misfit (List (Tree × Tree))
  | [] => .ok []
  | (k, v) :: r => do return (← tree k, ← tree v) :: (← treeEntries r)

end

end Node

end RecipeFlow.Yaml
