import RecipeFlow.Yaml.Cursor

/-! Scalars in blocks of indented lines, which keep their line breaks or have them folded. -/
namespace RecipeFlow.Yaml

/-- What becomes of the line breaks at the end of a block. -/
inductive Chomp where
  | strip
  | clip
  | keep
  deriving DecidableEq, Repr

/-- The digit that sets a block's indentation; zero is none. -/
def indentDigit? (c : Cursor) : Option (Option Nat × Cursor) :=
  match c.rest with
  | d :: _ =>
    if Text.isDigit d then if d == '0' then none else some (some (d.toNat - 48), c.advance 1)
    else some (none, c)
  | [] => some (none, c)

/-- The sign that says what becomes of the last line breaks. -/
def chomp? (c : Cursor) : Option (Chomp × Cursor) :=
  match c.rest with
  | '+' :: _ => some (.keep, c.advance 1)
  | '-' :: _ => some (.strip, c.advance 1)
  | _ => none

/-- The signs after the mark of a block, in either order. -/
def blockHeader? (c : Cursor) : Option (Chomp × Option Nat × Cursor) :=
  match chomp? c with
  | some (ch, c) => (indentDigit? c).map fun (n, c) => (ch, n, c)
  | none =>
    match indentDigit? c with
    | none => none
    | some (none, c) => some (.clip, none, c)
    | some (some n, c) =>
      match chomp? c with
      | some (ch, c) => some (ch, some n, c)
      | none => some (.clip, some n, c)

/-- Passes indentation and empty lines, collecting line breaks in reverse. The indentation is at
most `indent` if it is known; the widest one passed is kept. -/
def emptyLinesFrom? (indent : Option Nat) :
    Nat → Nat → List Char → Cursor → Option (Nat × List Char × Cursor)
  | 0, widest, breaks, c => some (widest, breaks, c)
  | fuel + 1, widest, breaks, c =>
    let spaces := (c.rest.takeWhile (· == ' ')).length
    let c := c.advance (match indent with
      | some n => min spaces (n - c.column)
      | none => spaces)
    let widest := max widest c.column
    if indent.all (c.column < ·) && c.rest.head? == some '\t' then none
    else
      match c.break? with
      | some b => emptyLinesFrom? indent fuel widest (b :: breaks) c.nextLine
      | none => some (widest, breaks, c)

/-- Passes indentation and empty lines and settles the indentation: the widest one passed, but
deeper than the block's parent. -/
def emptyLines? (parent : Int) (indent : Option Nat) (c : Cursor) :
    Option (Nat × List Char × Cursor) :=
  (emptyLinesFrom? indent (c.rest.length + 1) 0 [] c).map fun (widest, breaks, c) =>
    (indent.getD (max (max widest (parent + 1).toNat) 1), breaks, c)

/-- The lines of a block from one on. `acc` holds its characters so far, in reverse, `first` the
break that ended the last line and `breaks` the ones of empty lines after it, in reverse. -/
def blockFrom? (literal : Bool) (parent : Int) (indent : Nat) :
    Nat → List Char → Option Char → List Char → Bool → Cursor →
      Option (List Char × Option Char × List Char × Cursor)
  | 0, acc, first, breaks, _, c => some (acc, first, breaks, c)
  | fuel + 1, acc, first, breaks, wasBlank, c =>
    if c.column = indent && !c.rest.isEmpty then
      let startsBlank := c.rest.head?.any isBlank
      let joined :=
        if !literal && first == some '\n' && !wasBlank && !startsBlank then
          if breaks.isEmpty then ' ' :: acc else breaks ++ acc
        else breaks ++ first.toList ++ acc
      let line := c.rest.takeWhile (!isBreak ·)
      let c := c.advance line.length
      match emptyLines? parent (some indent) c.nextLine with
      | none => none
      | some (_, breaks, c') =>
        blockFrom? literal parent indent fuel (line.reverse ++ joined) c.break? breaks startsBlank c'
    else some (acc, first, breaks, c)

/-- The scalar whose mark stands here, below a parent's indentation. -/
def block? (literal : Bool) (parent : Int) (c : Cursor) : Option (String × Cursor) := do
  let (ch, digit, c) ← blockHeader? (c.advance 1)
  let c := c.skipBlanks.skipComment
  if !c.atBreak then none
  else
    let indent := digit.map fun n => if parent ≥ 0 then parent.toNat + n else n
    let (indent, breaks, c) ← emptyLines? parent indent c.nextLine
    let (acc, first, breaks, c) ←
      blockFrom? literal parent indent (c.rest.length + 1) [] none breaks false c
    let tail := match ch with
      | .strip => []
      | .clip => first.toList
      | .keep => breaks ++ first.toList
    return (String.ofList (tail ++ acc).reverse, c)

end RecipeFlow.Yaml
