import RecipeFlow.Yaml.Block
import RecipeFlow.Yaml.Plain
import RecipeFlow.Yaml.Property

/-! Cutting a YAML text into tokens. A key is seen to be one only at the colon behind it, so a token
that may start a key waits until the next ones have decided that. -/
namespace RecipeFlow.Yaml

/-- A place where a key without a mark may have started. -/
structure PossibleKey where
  /-- Whether nothing else than a key can stand here. -/
  required : Bool
  /-- Position of its first token among all tokens. -/
  token : Nat
  index : Nat
  line : Nat
  column : Nat
  deriving Repr

/-- A text in the middle of being cut. -/
structure Lexer where
  cursor : Cursor
  /-- Tokens that have been cut but wait, in order. -/
  waiting : List Token
  /-- How many tokens have been handed out. -/
  handedOut : Nat
  /-- Indentation of the current block, -1 outside of all. -/
  indent : Int
  /-- The indentations of the blocks around it, innermost first. -/
  outer : List Int
  /-- Whether a key without a mark may start here. -/
  keyAllowed : Bool
  /-- The possible key of the current collection in brackets, or of the block. -/
  key : Option PossibleKey
  /-- The possible keys of the collections around it, innermost first. -/
  outerKeys : List (Option PossibleKey)
  /-- Whether the end of the text has been reached. -/
  ended : Bool

namespace Lexer

def start (cs : List Char) : Lexer :=
  ⟨.ofChars cs, [], 0, -1, [], true, none, [], false⟩

def inFlow (s : Lexer) : Bool :=
  !s.outerKeys.isEmpty

/-- Appends a token. -/
def push (t : Token) (s : Lexer) : Lexer :=
  { s with waiting := s.waiting ++ [t] }

/-- Inserts a token at its position among all tokens. -/
def insertAt (position : Nat) (t : Token) (s : Lexer) : Lexer :=
  let n := position - s.handedOut
  { s with waiting := s.waiting.take n ++ t :: s.waiting.drop n }

def advance (n : Nat) (s : Lexer) : Lexer :=
  { s with cursor := s.cursor.advance n }

def allowKey (allowed : Bool) (s : Lexer) : Lexer :=
  { s with keyAllowed := allowed }

/-- A key has to end in its line, within 1024 characters. -/
def isStale (s : Lexer) (k : PossibleKey) : Bool :=
  k.line < s.cursor.line || k.index + 1024 < s.cursor.index

/-- Gives up the possible key of the current collection, unless it has to be one. -/
def dropKey (s : Lexer) : Option Lexer :=
  if s.key.any PossibleKey.required then none else some { s with key := none }

/-- Notes that a key may start here. -/
def noteKey (s : Lexer) : Option Lexer :=
  if s.keyAllowed then
    s.dropKey.map fun s => { s with
      key := some ⟨!s.inFlow && s.indent == (s.cursor.column : Int),
        s.handedOut + s.waiting.length, s.cursor.index, s.cursor.line, s.cursor.column⟩ }
  else some s

/-- Opens a block at a column that is deeper than the current one. -/
def openBlock (column : Nat) (position : Option Nat) (t : Token) (s : Lexer) : Lexer :=
  if !s.inFlow && s.indent < (column : Int) then
    let s := { s with outer := s.indent :: s.outer, indent := column }
    match position with
    | some n => s.insertAt n t
    | none => s.push t
  else s

/-- The blocks that are left open when those deeper than a column are closed, and the ends of the
closed ones. -/
def closedBlocks (column indent : Int) : List Int → Int × List Int × List Token
  | [] => (indent, [], [])
  | i :: r =>
    if indent > column then
      let (j, left, ends) := closedBlocks column i r
      (j, left, .blockEnd :: ends)
    else (indent, i :: r, [])

/-- Closes the blocks that are deeper than a column. -/
def closeBlocks (column : Int) (s : Lexer) : Lexer :=
  if s.inFlow then s
  else
    let (indent, outer, ends) := closedBlocks column s.indent s.outer
    { s with indent := indent, outer := outer, waiting := s.waiting ++ ends }

/-- Passes blanks, comments and line breaks. A tab may not stand where a key may start. -/
def passSpace : Nat → Lexer → Lexer
  | 0, s => s
  | fuel + 1, s =>
    let tabs := s.inFlow || !s.keyAllowed
    let c := (s.cursor.skip fun d => d == ' ' || (tabs && d == '\t')).skipComment
    if c.break?.isSome then
      passSpace fuel { s with cursor := c.nextLine, keyAllowed := s.keyAllowed || !s.inFlow }
    else { s with cursor := c }

/-- Passes the mark that a text may start with. -/
def passMark (s : Lexer) : Lexer :=
  if s.cursor.index == 0 && s.cursor.rest.head? == some '\uFEFF' then s.advance 1 else s

/-- The end of the text closes all blocks. -/
def endStream (s : Lexer) : Option Lexer :=
  let c := s.cursor
  let s := if c.column == 0 then s
    else { s with cursor := { c with column := 0, line := c.line + 1 } }
  (s.closeBlocks (-1)).dropKey.map fun s => { s.allowKey false with ended := true }.push .streamEnd

def directive (s : Lexer) : Option Lexer := do
  let s := (← (s.closeBlocks (-1)).dropKey).allowKey false
  let (t, c) ← directive? s.cursor
  return { s with cursor := c }.push t

def documentMark (t : Token) (s : Lexer) : Option Lexer :=
  (s.closeBlocks (-1)).dropKey.map fun s => ((s.allowKey false).advance 3).push t

def openFlow (t : Token) (s : Lexer) : Option Lexer :=
  s.noteKey.map fun s =>
    (({ s with outerKeys := s.key :: s.outerKeys, key := none }.allowKey true).advance 1).push t

def closeFlow (t : Token) (s : Lexer) : Option Lexer :=
  s.dropKey.map fun s =>
    let s := match s.outerKeys with
      | k :: r => { s with key := k, outerKeys := r }
      | [] => s
    ((s.allowKey false).advance 1).push t

def flowEntry (s : Lexer) : Option Lexer :=
  s.dropKey.map fun s => ((s.allowKey true).advance 1).push .flowEntry

/-- Opens a block for the mark that stands here, which needs a place where a key may start. -/
def openAtMark (t : Token) (s : Lexer) : Option Lexer :=
  if s.inFlow then some s
  else if s.keyAllowed then some (s.openBlock s.cursor.column none t)
  else none

def blockEntry (s : Lexer) : Option Lexer := do
  let s ← (← s.openAtMark .blockSequenceStart).dropKey
  return ((s.allowKey true).advance 1).push .blockEntry

def explicitKey (s : Lexer) : Option Lexer := do
  let s ← (← s.openAtMark .blockMappingStart).dropKey
  return ((s.allowKey (!s.inFlow)).advance 1).push .key

/-- The colon behind a possible key makes it one. -/
def valueMark (s : Lexer) : Option Lexer :=
  match s.key with
  | some k =>
    if s.isStale k then
      if k.required then none else lone { s with key := none }
    else
      let s := (s.insertAt k.token .key).openBlock k.column (some k.token) .blockMappingStart
      some (finish ({ s with key := none }.allowKey false))
  | none => lone s
where
  finish (s : Lexer) : Lexer := (s.advance 1).push .value
  lone (s : Lexer) : Option Lexer :=
    (s.openAtMark .blockMappingStart).map fun s => finish (s.allowKey (!s.inFlow))

/-- A token that may start a key. -/
def keyStart (read : Cursor → Option (Token × Cursor)) (s : Lexer) : Option Lexer := do
  let s := (← s.noteKey).allowKey false
  let (t, c) ← read s.cursor
  return { s with cursor := c }.push t

def blockScalar (literal : Bool) (s : Lexer) : Option Lexer := do
  let s := (← s.dropKey).allowKey true
  let (t, c) ← block? literal s.indent s.cursor
  return { s with cursor := c }.push (.scalar t false)

/-- A scalar without quotes; after a line break behind it a key may start. -/
def plainScalar (s : Lexer) : Option Lexer := do
  let s := (← s.noteKey).allowKey false
  let (t, broken, c) ← plain? s.inFlow (s.indent + 1) s.cursor
  return { s with cursor := c, keyAllowed := broken }.push (.scalar t true)

/-- Cuts the next token that stands in the text; `none` when none can. -/
def cut (s : Lexer) : Option Lexer :=
  let s := s.passMark.passSpace (s.cursor.rest.length + 1)
  let s := s.closeBlocks s.cursor.column
  let c := s.cursor
  match c.rest with
  | [] => s.endStream
  | d :: _ =>
    if c.column == 0 && d == '%' then s.directive
    else if c.atDocumentMark then s.documentMark (if d == '-' then .documentStart else .documentEnd)
    else if d == '[' then s.openFlow .flowSequenceStart
    else if d == '\x7b' then s.openFlow .flowMappingStart
    else if d == ']' then s.closeFlow .flowSequenceEnd
    else if d == '\x7d' then s.closeFlow .flowMappingEnd
    else if d == ',' then s.flowEntry
    else if d == '-' && c.blankAt 1 then s.blockEntry
    else if d == '?' && (s.inFlow || c.blankAt 1) then s.explicitKey
    else if d == ':' && (s.inFlow || c.blankAt 1) then s.valueMark
    else if d == '*' then s.keyStart fun c => (anchorName? c).map fun (n, c) => (.alias n, c)
    else if d == '&' then s.keyStart fun c => (anchorName? c).map fun (n, c) => (.anchor n, c)
    else if d == '!' then s.keyStart (tag? s.inFlow)
    else if d == '|' && !s.inFlow then s.blockScalar true
    else if d == '>' && !s.inFlow then s.blockScalar false
    else if d == '\'' || d == '"' then
      s.keyStart fun c => (quoted? (d == '\'') c).map fun (t, c) => (.scalar t false, c)
    else if startsPlain s.inFlow c then s.plainScalar
    else none

/-- What the possible keys say about the first waiting token. -/
inductive Verdict where
  /-- It can be handed out. -/
  | ready
  /-- It may start a key. -/
  | undecided
  /-- A key that was required did not come. -/
  | failed

/-- Goes through the possible keys, outermost first, up to one that starts at the first waiting
token. Keys that have become stale are given up. -/
def review (s : Lexer) : List (Option PossibleKey) → Verdict × List (Option PossibleKey)
  | [] => (.ready, [])
  | k :: r =>
    match k with
    | some p =>
      if s.isStale p then
        if p.required then (.failed, k :: r)
        else
          let (v, r) := review s r
          (v, none :: r)
      else if p.token = s.handedOut then (.undecided, k :: r)
      else
        let (v, r) := review s r
        (v, k :: r)
    | none =>
      let (v, r) := review s r
      (v, none :: r)

/-- Reviews all possible keys. -/
def reviewKeys (s : Lexer) : Verdict × Lexer :=
  let (v, ks) := s.review (s.key :: s.outerKeys).reverse
  match ks.reverse with
  | k :: r => (v, { s with key := k, outerKeys := r })
  | [] => (v, s)

/-- Hands out tokens in order, with a flag that tells whether the text could be cut to its end. -/
def run : Nat → Lexer → List Token × Bool
  | 0, _ => ([], false)
  | fuel + 1, s =>
    match s.waiting with
    | [] =>
      if s.ended then ([], true)
      else
        match s.cut with
        | some s => run fuel s
        | none => ([], false)
    | t :: r =>
      match s.reviewKeys with
      | (.failed, _) => ([], false)
      | (.undecided, s) =>
        match s.cut with
        | some s => run fuel s
        | none => ([], false)
      | (.ready, s) =>
        let (ts, complete) := run fuel { s with waiting := r, handedOut := s.handedOut + 1 }
        (t :: ts, complete)

end Lexer

/-- The tokens of a text that can be relied upon, and whether they are all of it. -/
def tokens (s : String) : List Token × Bool :=
  let cs := s.toList
  if cs.all isPrintable then (Lexer.start cs).run (8 * cs.length + 16) else ([], false)

end RecipeFlow.Yaml
