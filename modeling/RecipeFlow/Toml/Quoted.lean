import RecipeFlow.Text.Blank

/-! Quoted strings of TOML documents: basic ones with escapes and literal ones without, on one line
or on several. -/
namespace RecipeFlow.Toml

/-- The characters that may stand in comments and strings: no control characters but the tab. -/
def isPlain (c : Char) : Bool :=
  c == '\t' || (0x20 ≤ c.toNat && c.toNat != 0x7F)

def isSpace (c : Char) : Bool :=
  c == ' ' || c == '\t'

/-- What follows an end of line. -/
def lineEnd? : List Char → Option (List Char)
  | '\n' :: r => some r
  | '\r' :: '\n' :: r => some r
  | _ => none

/-- The character of a code point given in so many hexadecimal digits. -/
def codePoint? (count : Nat) (cs : List Char) : Option (Char × List Char) := do
  let ds := cs.take count
  if ds.length = count then
    let n ← Text.digits? 16 ds
    if n < 0xD800 || (0xE000 ≤ n && n < 0x110000) then some (Char.ofNat n, cs.drop count) else none
  else none

/-- The character behind a backslash. -/
def escaped? : List Char → Option (Char × List Char)
  | 'b' :: r => some ('\x08', r)
  | 't' :: r => some ('\t', r)
  | 'n' :: r => some ('\n', r)
  | 'f' :: r => some ('\x0c', r)
  | 'r' :: r => some ('\r', r)
  | 'e' :: r => some ('\x1b', r)
  | '"' :: r => some ('"', r)
  | '\\' :: r => some ('\\', r)
  | 'x' :: r => codePoint? 2 r
  | 'u' :: r => codePoint? 4 r
  | 'U' :: r => codePoint? 8 r
  | _ => none

/-- The rest of a literal string on one line. -/
def literalFrom? (acc : List Char) : List Char → Option (String × List Char)
  | [] => none
  | c :: r =>
    if c == '\'' then some (String.ofList acc.reverse, r)
    else if isPlain c then literalFrom? (c :: acc) r
    else none

/-- The rest of a basic string on one line. -/
def basicFrom? (acc : List Char) : Nat → List Char → Option (String × List Char)
  | 0, _ | _, [] => none
  | fuel + 1, c :: r =>
    if c == '"' then some (String.ofList acc.reverse, r)
    else if c == '\\' then
      match escaped? r with
      | some (c', r') => basicFrom? (c' :: acc) fuel r'
      | none => none
    else if isPlain c then basicFrom? (c :: acc) fuel r
    else none

/-- How many quotes a text starts with. -/
def leading (quote : Char) (cs : List Char) : Nat :=
  (cs.takeWhile (· == quote)).length

/-- Skips spaces and line ends. -/
def skipSpaceLines : List Char → List Char
  | '\r' :: '\n' :: r => skipSpaceLines r
  | c :: r => if isSpace c || c == '\n' then skipSpaceLines r else c :: r
  | [] => []

/-- The rest of a string on several lines. Up to two quotes may stand before the closing three, and
a backslash at the end of a line swallows the space up to the next text. -/
def linesFrom? (quote : Char) (acc : List Char) : Nat → List Char → Option (String × List Char)
  | 0, _ | _, [] => none
  | fuel + 1, c :: r =>
    if c == quote then
      let n := leading quote (c :: r)
      if n < 3 then linesFrom? quote (c :: acc) fuel r
      else if n ≤ 5 then
        some (String.ofList (List.replicate (n - 3) quote ++ acc).reverse, (c :: r).drop n)
      else none
    else if c == '\\' && quote == '"' then
      match r.dropWhile isSpace with
      | q@('\n' :: _) | q@('\r' :: '\n' :: _) => linesFrom? quote acc fuel (skipSpaceLines q)
      | _ =>
        match escaped? r with
        | some (c', r') => linesFrom? quote (c' :: acc) fuel r'
        | none => none
    else if c == '\r' then
      if r.head? == some '\n' then linesFrom? quote (c :: acc) fuel r else none
    else if c == '\n' || isPlain c then linesFrom? quote (c :: acc) fuel r
    else none

/-- A quoted string on one line. -/
def quoted? : List Char → Option (String × List Char)
  | '"' :: r => basicFrom? [] (r.length + 1) r
  | '\'' :: r => literalFrom? [] r
  | _ => none

/-- A quoted string on one line or, between triple quotes, on several; a line end right after the
opening quotes does not count. -/
def anyQuoted? (cs : List Char) : Option (String × List Char) :=
  match cs with
  | a :: b :: c :: r =>
    if (a == '"' || a == '\'') && a == b && b == c then
      let body := (lineEnd? r).getD r
      linesFrom? a [] (body.length + 1) body
    else quoted? cs
  | _ => quoted? cs

end RecipeFlow.Toml
