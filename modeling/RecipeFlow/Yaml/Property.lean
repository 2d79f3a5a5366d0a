import RecipeFlow.Yaml.Cursor
import RecipeFlow.Yaml.Token

/-! Tokens that say something about nodes or documents: anchors, aliases, tags and directives. -/
namespace RecipeFlow.Yaml

/-- The characters that may follow the name of an anchor. -/
def endsAnchor (c : Char) : Bool :=
  isBlank c || isBreak c || ['?', ':', ',', ']', '}', '%', '@', '\x60'].contains c

/-- The name of an anchor or alias, whose mark stands here. -/
def anchorName? (c : Cursor) : Option (List Char × Cursor) :=
  let start := c.advance 1
  let name := start.rest.takeWhile isWordChar
  let after := start.advance name.length
  if !name.isEmpty && after.rest.head?.all endsAnchor then some (name, after) else none

/-- The characters of a tag; some more may stand between angle brackets. -/
def isTagChar (verbatim : Bool) (c : Char) : Bool :=
  isWordChar c ||
    [';', '/', '?', ':', '@', '&', '=', '+', '$', '.', '%', '!', '~', '*', '\'', '(', ')'].contains c
    || (verbatim && [',', '[', ']'].contains c)

/-- The octet of an escape. -/
def octet? (cs : List Char) : Option Nat :=
  match cs with
  | '%' :: a :: b :: _ => Text.digits? 16 [a, b]
  | _ => none

/-- How many escapes the first of a group announces. -/
def octetCount? (n : Nat) : Option Nat :=
  if n < 0x80 then some 1
  else if 0xC0 ≤ n && n < 0xE0 then some 2
  else if 0xE0 ≤ n && n < 0xF0 then some 3
  else if 0xF0 ≤ n && n < 0xF8 then some 4
  else none

/-- The octets of the escapes that continue a group. -/
def moreOctets? : Nat → List Char → Option (List Char × List Char)
  | 0, cs => some ([], cs)
  | n + 1, cs =>
    match octet? cs with
    | some o =>
      if 0x80 ≤ o && o < 0xC0 then
        (moreOctets? n (cs.drop 3)).map fun (os, r) => (Char.ofNat o :: os, r)
      else none
    | none => none

/-- The characters of a tag with its escapes replaced by the octets they stand for. -/
def tagChars? (verbatim : Bool) : Nat → List Char → Option (List Char × List Char)
  | 0, cs => some ([], cs)
  | _ + 1, [] => some ([], [])
  | fuel + 1, c :: r =>
    if c == '%' then
      match octet? (c :: r) with
      | none => none
      | some o =>
        match octetCount? o with
        | none => none
        | some n =>
          match moreOctets? (n - 1) ((c :: r).drop 3) with
          | none => none
          | some (os, r') =>
            (tagChars? verbatim fuel r').map fun (t, q) => (Char.ofNat o :: os ++ t, q)
    else if isTagChar verbatim c then (tagChars? verbatim fuel r).map fun (t, q) => (c :: t, q)
    else some ([], c :: r)

/-- The text of a tag from here on. -/
def tagText? (verbatim : Bool) (c : Cursor) : Option (List Char × Cursor) :=
  (tagChars? verbatim c.rest.length c.rest).map fun (t, r) =>
    (t, c.advance (c.rest.length - r.length))

/-- The handle of a tag: exclamation marks around a word, or one in front of it. -/
def tagHandle? (c : Cursor) : Option (List Char × Cursor) :=
  match c.rest with
  | '!' :: r =>
    let word := r.takeWhile isWordChar
    let closed : List Char := if (r.drop word.length).head? == some '!' then ['!'] else []
    let name := '!' :: word ++ closed
    some (name, c.advance name.length)
  | _ => none

/-- A handle that a tag can use or a directive declare: it is closed by a second mark. -/
def isClosed (handle : List Char) : Bool :=
  handle.length > 1 && handle.getLast? == some '!'

/-- A tag between angle brackets, which stands as it is. -/
def verbatimTag? (c : Cursor) : Option (Token × Cursor) :=
  match tagText? true (c.advance 2) with
  | some (t, c') =>
    if !t.isEmpty && c'.rest.head? == some '>' then some (.tag [] t, c'.advance 1) else none
  | none => none

/-- A tag with a handle, or a local one. A lone mark has no handle. -/
def shortTag? (c : Cursor) : Option (Token × Cursor) :=
  match tagHandle? c with
  | none => none
  | some (name, c') =>
    match tagText? false c' with
    | none => none
    | some (t, c'') =>
      if isClosed name then if t.isEmpty then none else some (.tag name t, c'')
      else
        let suffix := name.drop 1 ++ t
        some (if suffix.isEmpty then .tag [] ['!'] else .tag ['!'] suffix, c'')

/-- A tag, which a blank or a line break has to follow, or a comma inside brackets. -/
def tag? (inFlow : Bool) (c : Cursor) : Option (Token × Cursor) :=
  let read := if c.startsWith ['!', '<'] then verbatimTag? c else shortTag? c
  read.filter fun (_, c') => (inFlow && c'.rest.head? == some ',') || c'.blankAt 0

/-- A number of at most nine digits. -/
def versionNumber? (c : Cursor) : Option (Nat × Cursor) :=
  let ds := c.rest.takeWhile Text.isDigit
  if ds.length ≤ 9 then (Text.digits? 10 ds).map (·, c.advance ds.length) else none

/-- The version that a directive asks for. -/
def versionDirective? (c : Cursor) : Option (Token × Cursor) := do
  let (major, c) ← versionNumber? c.skipBlanks
  if c.rest.head? == some '.' then
    let (minor, c) ← versionNumber? (c.advance 1)
    return (.version major minor, c)
  else none

/-- The handle that a directive declares and what it stands for. -/
def handleDirective? (c : Cursor) : Option (Token × Cursor) := do
  let (name, c) ← tagHandle? c.skipBlanks
  if !(isClosed name || name == ['!']) || !c.rest.head?.any isBlank then none
  else
    let (stem, c) ← tagText? true c.skipBlanks
    if stem.isEmpty || !c.blankAt 0 then none else return (.handle name stem, c)

/-- A directive, whose mark stands here, with the rest of its line. -/
def directive? (c : Cursor) : Option (Token × Cursor) := do
  let start := c.advance 1
  let name := start.rest.takeWhile isWordChar
  let after := start.advance name.length
  if name.isEmpty || !after.blankAt 0 then none
  else
    let (token, after) ← if name == "YAML".toList then versionDirective? after
      else if name == "TAG".toList then handleDirective? after
      else none
    let after := after.skipBlanks.skipComment
    if after.atBreak then return (token, after.nextLine) else none

end RecipeFlow.Yaml
