/-! The nodes of a YAML document. -/
namespace RecipeFlow.Yaml

/-- A text that stands as a node. -/
structure Scalar where
  text : String
  /-- The tag it carries, with its handle resolved. -/
  tag : Option String
  /-- Whether it stands without quotes and is no block. -/
  plain : Bool
  deriving DecidableEq, Repr, Inhabited

/-- What an absent node stands for. -/
def Scalar.absent : Scalar := ⟨"", none, true⟩

/-- A node. The entries of a mapping keep their order, and a key may stand more than once. -/
inductive Node where
  | scalar (s : Scalar)
  | sequence (tag : Option String) (items : List Node)
  | mapping (tag : Option String) (entries : List (Node × Node))
  /-- The place from which on the text is no YAML. -/
  | broken
  deriving Repr, Inhabited

end RecipeFlow.Yaml
