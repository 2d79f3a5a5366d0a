import RecipeFlow.Yaml.Tree

/-! Reading a YAML document by a schema: records with named fields, and choices between variants that
a field `type` names. -/
namespace RecipeFlow.Schema

open Yaml

/-- Fills in one field of an unfinished record. -/
abbrev Setter (σ α : Type) := σ → String → α → Except Misfit σ

/-- Reads fields in order. Each has to be known and to come once. -/
def readFields {σ κ α : Type} (name : κ → Except Misfit String) (known : List String)
    (set : Setter σ α) (seen : List String) (s : σ) : List (κ × α) → Except Misfit σ
  | [] => .ok s
  | (k, v) :: r => do
    let field ← name k
    if !known.contains field then .error (.unknownField field known)
    else if seen.contains field then .error (.duplicateField field)
    else readFields name known set (field :: seen) (← set s field v) r

/-- A field that has to be there. -/
def required {α : Type} (name : String) : Option α → Except Misfit α
  | some a => .ok a
  | none => .error (.missingField name)

/-! Fields of nodes: a text is what the document writes, whatever it means. -/

/-- Whether nothing stands in a node's place. -/
def isAbsent : Node → Bool
  | .scalar s => s.text.isEmpty && s.plain
  | _ => false

def text : Node → Except Misfit String
  | .scalar s => .ok s.text
  | n => .error (n.mistyped "a string")

def fieldName : Node → Except Misfit String
  | .scalar s => .ok s.text
  | n => .error (n.mistyped "field identifier")

/-- Nothing, or a text. What stands in quotes is a text. -/
def textOrNull : Node → Except Misfit (Option String)
  | .scalar s =>
    if s.plain && s.tag = some (standardTag "null") then s.atom.map fun _ => none
    else if s.plain && s.tag.isNone && (s.text.isEmpty || isNullText s.text) then .ok none
    else .ok (some s.text)
  | n => (text n).map some

def items {α : Type} (item : Node → Except Misfit α) : Node → Except Misfit (List α)
  | .sequence _ ns => ns.mapM item
  | n => if isAbsent n then .ok [] else .error (n.mistyped "a sequence")

/-- A record that stands as a mapping. -/
def record {σ : Type} (type : String) (known : List String) (set : Setter σ Node) (init : σ) :
    Node → Except Misfit σ
  | .mapping _ entries => readFields fieldName known set [] init entries
  | n => if isAbsent n then .ok init else .error (n.mistyped ("struct " ++ type))

/-! Choices: all fields but `type` are read as trees first. -/

/-- The variant that a node names. -/
def variant (known : List String) : Node → Except Misfit String
  | .scalar s => if known.contains s.text then .ok s.text else .error (.unknownVariant s.text known)
  | n => .error (n.mistyped "variant identifier")

/-- Sorts the entries of a mapping into the variant and the rest. -/
def splitVariant (known : List String) (chosen : Option String) (rest : List (Tree × Tree)) :
    List (Node × Node) → Except Misfit (Option String × List (Tree × Tree))
  | [] => .ok (chosen, rest)
  | (k, v) :: r => do
    match ← k.tree with
    | .atom (.text "type") =>
      if chosen.isSome then .error (.duplicateField "type")
      else splitVariant known (some (← variant known v)) rest r
    | t => splitVariant known chosen (rest ++ [(t, ← v.tree)]) r

/-- The variant of a choice, and what else it holds. -/
def choice (type : String) (known : List String) (n : Node) : Except Misfit (String × Tree) :=
  let expected := "internally tagged enum " ++ type
  if n.hasLocalTag then .error (.wrongType .tagged expected)
  else match n with
    | .sequence _ [] => .error (.missingField "type")
    | .sequence _ (first :: rest) => do
      return (← variant known first, .sequence (← rest.mapM Node.tree))
    | .mapping _ entries => do
      let (chosen, rest) ← splitVariant known none [] entries
      return (← required "type" chosen, .mapping rest)
    | n => .error (n.mistyped expected)

/-! Fields of trees. -/

def treeText : Tree → Except Misfit String
  | .atom (.text s) => .ok s
  | t => .error (t.mistyped "a string")

def treeBool : Tree → Except Misfit Bool
  | .atom (.bool b) => .ok b
  | t => .error (t.mistyped "a boolean")

/-- A whole number of 32 bits without sign. -/
def treeCount : Tree → Except Misfit Nat
  | .atom (.natural n) => if n < Nat.pow 2 32 then .ok n else .error (.wrongValue (.int n) "u32")
  | .atom (.signed i) => if i < 0 then .error (.wrongValue (.int i) "u32") else .ok i.toNat
  | t => .error (t.mistyped "u32")

/-- A whole number of 64 bits with sign. -/
def treeInt : Tree → Except Misfit Int
  | .atom (.natural n) => if n < Nat.pow 2 63 then .ok n else .error (.wrongValue (.int n) "i64")
  | .atom (.signed i) => .ok i
  | t => .error (t.mistyped "i64")

/-- Nothing, or what a reader takes. -/
def orNull {α : Type} (read : Tree → Except Misfit α) : Tree → Except Misfit (Option α)
  | .atom .null => .ok none
  | t => (read t).map some

/-- A name out of a list, which its index may stand for. -/
def nameOrIndex (kind : String) (names : List String) : Tree → Except Misfit String
  | .atom (.text s) => .ok s
  | .atom (.natural n) =>
    match names[n]? with
    | some s => .ok s
    | none => .error (.wrongValue (.int n) (kind ++ " index 0 <= i < " ++ toString names.length))
  | t => .error (t.mistyped (kind ++ " identifier"))

/-- So many items of a sequence. -/
def countedElements (n : Nat) : String :=
  toString n ++ (if n = 1 then " element" else " elements") ++ " in sequence"

/-- Reads fields in the order of their names, as far as there are values. -/
def readInOrder {σ : Type} (set : Setter σ Tree) (s : σ) : List String → List Tree → Except Misfit σ
  | f :: fs, v :: vs => do readInOrder set (← set s f v) fs vs
  | _, _ => .ok s

/-- A record of which no field is required; it stands as a mapping or a sequence. -/
def treeRecord {σ : Type} (type : String) (known : List String) (set : Setter σ Tree) (init : σ) :
    Tree → Except Misfit σ
  | .mapping entries => readFields (nameOrIndex "field" known) known set [] init entries
  | .sequence vs => do
    let s ← readInOrder set init known vs
    if vs.length ≤ known.length then .ok s
    else .error (.wrongLength vs.length (countedElements known.length))
  | t => .error (t.mistyped ("struct " ++ type))

/-- A choice between names that may stand alone or as the key of nothing. -/
def treeName (known names : List String) : Tree → Except Misfit String
  | .mapping [(k, v)] => do
    let s ← name k
    match v with
    | .atom .null | .mapping [] => .ok s
    | v => .error (v.mistyped "unit")
  | .mapping _ => .error (.wrongValue .map "map with a single key")
  | .atom (.text s) => name (.text s)
  | t => .error (t.mistyped "string or map")
where
  name (t : Tree) : Except Misfit String := do
    let s ← nameOrIndex "variant" names t
    if known.contains s then .ok s else .error (.unknownVariant s known)

end RecipeFlow.Schema
