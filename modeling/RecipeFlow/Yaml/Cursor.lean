import RecipeFlow.Text.Blank

/-! Places in a YAML text, and the classes of characters that its tokens are made of. -/
namespace RecipeFlow.Yaml

/-- The characters that a text may hold. -/
def isPrintable (c : Char) : Bool :=
  let n := c.toNat
  n == 9 || n == 10 || n == 13 || (0x20 ≤ n && n ≤ 0x7E) || n == 0x85 ||
    (0xA0 ≤ n && n ≤ 0xFFFD) || 0x10000 ≤ n

def isBlank (c : Char) : Bool :=
  c == ' ' || c == '\t'

def isBreak (c : Char) : Bool :=
  c == '\n' || c == '\r' || c == '\u0085' || c == '\u2028' || c == '\u2029'

/-- Letters, digits, underscores and hyphens. -/
def isWordChar (c : Char) : Bool :=
  Text.isAsciiLetter c || Text.isDigit c || c == '_' || c == '-'

/-- A place in a text, with what follows it. -/
structure Cursor where
  rest : List Char
  /-- Characters before the place. -/
  index : Nat
  line : Nat
  /-- Characters before the place in its line. -/
  column : Nat
  deriving Repr, Inhabited

namespace Cursor

/-- The start of a text. -/
def ofChars (cs : List Char) : Cursor :=
  ⟨cs, 0, 0, 0⟩

/-- The place after so many characters of the line. -/
def advance (n : Nat) (c : Cursor) : Cursor :=
  { c with rest := c.rest.drop n, index := c.index + n, column := c.column + n }

/-- The place after the line break that stands here, if one does. -/
def nextLine (c : Cursor) : Cursor :=
  match c.rest with
  | '\r' :: '\n' :: r => ⟨r, c.index + 2, c.line + 1, 0⟩
  | _ :: r => ⟨r, c.index + 1, c.line + 1, 0⟩
  | [] => c

/-- The line break that stands here, in its normal form. -/
def break? (c : Cursor) : Option Char :=
  match c.rest with
  | b :: _ => if b == '\u2028' || b == '\u2029' then some b else if isBreak b then some '\n' else none
  | [] => none

/-- Passes the characters of a class, which holds no line break. -/
def skip (p : Char → Bool) (c : Cursor) : Cursor :=
  c.advance (c.rest.takeWhile p).length

def skipBlanks (c : Cursor) : Cursor :=
  c.skip isBlank

/-- Passes a comment. -/
def skipComment (c : Cursor) : Cursor :=
  if c.rest.head? == some '#' then c.skip (!isBreak ·) else c

/-- Whether the text ends or a line break stands here. -/
def atBreak (c : Cursor) : Bool :=
  c.rest.head?.all isBreak

/-- Whether a blank, a line break or the end is so many characters ahead. -/
def blankAt (n : Nat) (c : Cursor) : Bool :=
  match c.rest.drop n with
  | [] => true
  | d :: _ => isBlank d || isBreak d

/-- Whether a text stands here. -/
def startsWith (s : List Char) (c : Cursor) : Bool :=
  s.isPrefixOf c.rest

/-- Whether the mark of a document's start or end stands alone at the beginning of the line. -/
def atDocumentMark (c : Cursor) : Bool :=
  c.column == 0 && (c.startsWith ['-', '-', '-'] || c.startsWith ['.', '.', '.']) && c.blankAt 3

end Cursor

end RecipeFlow.Yaml
