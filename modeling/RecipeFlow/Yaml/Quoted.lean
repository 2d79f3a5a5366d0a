import RecipeFlow.Yaml.Cursor

/-! Scalars in single or double quotes. Line breaks in them are folded: a lone one becomes a space,
and of several the first is dropped. -/
namespace RecipeFlow.Yaml

/-- The character behind a backslash that stands for itself or for a code. -/
def escapedChar? (c : Char) : Option Char :=
  match c with
  | '0' => some '\x00'
  | 'a' => some '\x07'
  | 'b' => some '\x08'
  | 't' | '\t' => some '\t'
  | 'n' => some '\n'
  | 'v' => some '\x0b'
  | 'f' => some '\x0c'
  | 'r' => some '\r'
  | 'e' => some '\x1b'
  | ' ' => some ' '
  | '"' => some '"'
  | '/' => some '/'
  | '\\' => some '\\'
  | 'N' => some '\u0085'
  | '_' => some '\u00A0'
  | 'L' => some '\u2028'
  | 'P' => some '\u2029'
  | _ => none

/-- How many hexadecimal digits follow the mark of a code point. -/
def codeLength? (c : Char) : Option Nat :=
  match c with
  | 'x' => some 2
  | 'u' => some 4
  | 'U' => some 8
  | _ => none

/-- The character that an escape stands for, whose backslash is here. -/
def escape? (c : Cursor) : Option (Char × Cursor) :=
  match c.rest with
  | _ :: m :: r =>
    match codeLength? m with
    | some n =>
      let ds := r.take n
      if ds.length = n then
        match Text.digits? 16 ds with
        | some v =>
          if v < 0xD800 || (0xE000 ≤ v && v < 0x110000) then some (Char.ofNat v, c.advance (2 + n))
          else none
        | none => none
      else none
    | none => (escapedChar? m).map (·, c.advance 2)
  | _ => none

/-- Blanks and line breaks between words: the blanks of the first line, the first break, and the
breaks after it. -/
structure Gap where
  blanks : List Char := []
  first : Option Char := none
  more : List Char := []

namespace Gap

/-- What a gap becomes in the scalar. -/
def fold (g : Gap) (broken : Bool) : List Char :=
  if broken then
    match g.first with
    | some '\n' => if g.more.isEmpty then [' '] else g.more
    | some b => b :: g.more
    | none => g.more
  else g.blanks

end Gap

/-- Passes the blanks and line breaks of a gap. After a break, `broken` holds. -/
def gapFrom : Nat → Bool → Gap → Cursor → Gap × Bool × Cursor
  | 0, broken, g, c => (g, broken, c)
  | fuel + 1, broken, g, c =>
    match c.rest with
    | [] => (g, broken, c)
    | d :: _ =>
      if isBlank d then
        gapFrom fuel broken (if broken then g else { g with blanks := g.blanks ++ [d] }) (c.advance 1)
      else
        match c.break? with
        | some b =>
          gapFrom fuel true
            (if broken then { g with more := g.more ++ [b] } else { g with first := some b })
            c.nextLine
        | none => (g, broken, c)

/-- The characters of a scalar up to a blank, a line break or its closing quote, in front of the
ones collected in reverse; and whether an escaped line break has ended them. -/
def quotedWord? (single : Bool) : Nat → List Char → Cursor → Option (List Char × Bool × Cursor)
  | 0, acc, c => some (acc, false, c)
  | fuel + 1, acc, c =>
    match c.rest with
    | [] => some (acc, false, c)
    | d :: r =>
      if isBlank d || isBreak d then some (acc, false, c)
      else if single then
        if d == '\'' then
          if r.head? == some '\'' then quotedWord? single fuel ('\'' :: acc) (c.advance 2)
          else some (acc, false, c)
        else quotedWord? single fuel (d :: acc) (c.advance 1)
      else if d == '"' then some (acc, false, c)
      else if d == '\\' then
        if r.head?.any isBreak then some (acc, true, (c.advance 1).nextLine)
        else
          match escape? c with
          | some (e, c') => quotedWord? single fuel (e :: acc) c'
          | none => none
      else quotedWord? single fuel (d :: acc) (c.advance 1)

/-- The rest of a scalar, with its characters so far in reverse. -/
def quotedFrom? (single : Bool) : Nat → List Char → Cursor → Option (List Char × Cursor)
  | 0, _, _ => none
  | fuel + 1, acc, c =>
    if c.atDocumentMark || c.rest.isEmpty then none
    else
      match quotedWord? single c.rest.length acc c with
      | none => none
      | some (acc, broken, c) =>
        if c.rest.head? == some (if single then '\'' else '"') then some (acc, c.advance 1)
        else
          let (g, broken, c) := gapFrom c.rest.length broken {} c
          quotedFrom? single fuel ((g.fold broken).reverse ++ acc) c

/-- The scalar whose opening quote stands here. -/
def quoted? (single : Bool) (c : Cursor) : Option (String × Cursor) :=
  (quotedFrom? single (c.rest.length + 1) [] (c.advance 1)).map fun (acc, c') =>
    (String.ofList acc.reverse, c')

end RecipeFlow.Yaml
