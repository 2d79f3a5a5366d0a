/-! The tokens of a YAML text. -/
namespace RecipeFlow.Yaml

/-- A token; blocks are opened and closed by their indentation. -/
inductive Token where
  | version (major minor : Nat)
  /-- Declares what a handle in tags stands for. -/
  | handle (name stem : List Char)
  | documentStart
  | documentEnd
  | blockSequenceStart
  | blockMappingStart
  | blockEnd
  | flowSequenceStart
  | flowSequenceEnd
  | flowMappingStart
  | flowMappingEnd
  | blockEntry
  | flowEntry
  | key
  | value
  | alias (name : List Char)
  | anchor (name : List Char)
  | tag (handle suffix : List Char)
  | scalar (text : String) (plain : Bool)
  | streamEnd
  deriving DecidableEq, Repr, Inhabited

end RecipeFlow.Yaml
