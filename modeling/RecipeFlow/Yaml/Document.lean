import RecipeFlow.Yaml.Draft
import RecipeFlow.Yaml.Lexer

/-! The document of a YAML text: its root node, with the node of its anchor for every alias. -/
namespace RecipeFlow.Yaml

namespace Draft

mutual

/-- The nodes with an anchor, in document order. -/
def anchored : Draft → List (Nat × Draft)
  | .scalar a s => a.toList.map (·, .scalar a s)
  | .sequence a tag items => a.toList.map (·, .sequence a tag items) ++ anchoredItems items
  | .mapping a tag entries => a.toList.map (·, .mapping a tag entries) ++ anchoredEntries entries
  | .alias _ | .broken => []

def anchoredItems : List Draft → List (Nat × Draft)
  | [] => []
  | d :: r => anchored d ++ anchoredItems r

def anchoredEntries : List (Draft × Draft) → List (Nat × Draft)
  | [] => []
  | (k, v) :: r => anchored k ++ anchored v ++ anchoredEntries r

end

mutual

/-- Counts scalars, aliases, and the starts and ends of collections. -/
def weight : Draft → Nat
  | .scalar .. | .alias _ => 1
  | .sequence _ _ items => 2 + weightItems items
  | .mapping _ _ entries => 2 + weightEntries entries
  | .broken => 0

def weightItems : List Draft → Nat
  | [] => 0
  | d :: r => weight d + weightItems r

def weightEntries : List (Draft × Draft) → Nat
  | [] => 0
  | (k, v) :: r => weight k + weight v + weightEntries r

end

/-- Goes through a list from left to right until the state is lost. -/
def thread {α β σ : Type} (f : α → σ → β × Option σ) : List α → σ → List β × Option σ
  | [], s => ([], some s)
  | a :: r, s =>
    match f a s with
    | (b, none) => ([b], none)
    | (b, some s) =>
      let (bs, e) := thread f r s
      (b :: bs, e)

/-- Follows an alias, which uses up one of the jumps that are left. -/
def target (table : List (Nat × Draft)) (d : Draft) (jumps : Nat) : Draft × Option Nat :=
  match d with
  | .alias id =>
    match jumps, table.lookup id with
    | jumps + 1, some d => (d, some jumps)
    | _, _ => (.broken, none)
  | d => (d, some jumps)

/-- The node of a draft in which collections are nested no deeper than `depth`. -/
def expand (table : List (Nat × Draft)) (depth : Nat) (d : Draft) (jumps : Nat) :
    Node × Option Nat :=
  match target table d jumps, depth with
  | (.scalar _ s, some jumps), _ => (.scalar s, some jumps)
  | (.sequence _ tag items, some jumps), depth + 1 =>
    let (nodes, e) := thread (expand table depth) items jumps
    (.sequence tag nodes, e)
  | (.mapping _ tag entries, some jumps), depth + 1 =>
    let entry (p : Draft × Draft) (jumps : Nat) :=
      match expand table depth p.1 jumps with
      | (k, none) => ((k, Node.broken), none)
      | (k, some jumps) =>
        let (v, e) := expand table depth p.2 jumps
        ((k, v), e)
    let (nodes, e) := thread entry entries jumps
    (.mapping tag nodes, e)
  | _, _ => (.broken, none)

/-- The node of a draft. An alias stands for the last node with its number. -/
def toNode (d : Draft) : Node :=
  (expand d.anchored.reverse 128 d (100 * d.weight)).1

end Draft

/-- The declarations before a document: handles, which stand before the default ones, and a
version. -/
def declarations? (versioned : Bool) (handles : List (List Char × List Char)) :
    List Token → Option (List (List Char × List Char) × List Token)
  | .version major minor :: ts =>
    if !versioned && major == 1 && (minor == 1 || minor == 2) then declarations? true handles ts
    else none
  | .handle name stem :: ts =>
    if handles.any (·.1 == name) then none
    else declarations? versioned (handles ++ [(name, stem)]) ts
  | ts => some (handles ++ [(['!'], ['!']), (['!', '!'], "tag:yaml.org,2002:".toList)], ts)

/-- Ends a document whose start is marked. -/
def endsDocument : Token → Bool
  | .version .. | .handle .. | .documentStart | .documentEnd | .streamEnd => true
  | _ => false

/-- The root of the first document. -/
def rootDraft (ts : List Token) : Step Draft :=
  let fuel := 2 * ts.length + 8
  match ts with
  | .version .. :: _ | .handle .. :: _ | .documentStart :: _ =>
    match declarations? false [] ts with
    | some (handles, .documentStart :: ts) =>
      Reader.orAbsent endsDocument (Reader.node fuel true false) ⟨ts, handles, []⟩
    | _ => (.broken, none)
  | _ =>
    match declarations? false [] [] with
    | some (handles, _) =>
      if ts.head? == some .streamEnd then (.absent, some ⟨ts, handles, []⟩)
      else Reader.node fuel true false ⟨ts, handles, []⟩
    | none => (.broken, none)

/-- Whether nothing follows a document but marks of its end. -/
def isLast (r : Reader) : Bool :=
  r.tokens.dropWhile (· == .documentEnd) == [.streamEnd]

/-- The root of a text's document, and whether the text is one whole document. -/
def document (s : String) : Node × Bool :=
  let (d, r) := rootDraft (tokens s).1
  (d.toNode, r.any isLast)

end RecipeFlow.Yaml
