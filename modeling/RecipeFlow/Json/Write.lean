import RecipeFlow.Json.Basic
import RecipeFlow.Number.Shortest
import RecipeFlow.Text.Blank

/-! The compact and the indented text of a JSON value. -/
namespace RecipeFlow.Json

/-- A backslash, `u` and four hexadecimal digits. -/
def escapeUnit (n : Nat) : List Char :=
  let ds := Text.hexDigits n
  ['\\', 'u'] ++ List.replicate (4 - ds.length) '0' ++ ds

/-- A character of a string: quotes, backslashes and control characters are escaped. -/
def escapeChar (c : Char) : List Char :=
  if c == '"' then ['\\', '"']
  else if c == '\\' then ['\\', '\\']
  else if c == '\n' then ['\\', 'n']
  else if c == '\r' then ['\\', 'r']
  else if c == '\t' then ['\\', 't']
  else if c == '\x08' then ['\\', 'b']
  else if c == '\x0c' then ['\\', 'f']
  else if c.toNat < 0x20 then escapeUnit c.toNat
  else [c]

/-- A string between double quotes. -/
def stringChars (s : String) : List Char :=
  '"' :: s.toList.flatMap escapeChar ++ ['"']

mutual

/-- The text of a value without any space. -/
def compactChars : Json → List Char
  | .null => "null".toList
  | .bool b => (if b then "true" else "false").toList
  | .int i => (toString i).toList
  | .float x => x.documentChars
  | .str s => stringChars s
  | .arr items => '[' :: compactItems true items ++ [']']
  | .obj members => '\x7b' :: compactMembers true members ++ ['\x7d']

/-- The items, each but the first after a comma. -/
def compactItems (first : Bool) : List Json → List Char
  | [] => []
  | v :: r => (if first then [] else [',']) ++ compactChars v ++ compactItems false r

/-- The members, each but the first after a comma. -/
def compactMembers (first : Bool) : List (String × Json) → List Char
  | [] => []
  | (k, v) :: r =>
    (if first then [] else [',']) ++ stringChars k ++ [':'] ++ compactChars v ++
      compactMembers false r

end

/-- The text of a value without any space. -/
def compact (v : Json) : String :=
  String.ofList v.compactChars

/-- A line feed and two spaces for each level. -/
def newLine (depth : Nat) : List Char :=
  '\n' :: List.replicate (2 * depth) ' '

mutual

/-- The text of a value with each item on a line of its own; empty brackets stay together. -/
def indentedChars (depth : Nat) : Json → List Char
  | .arr [] => ['[', ']']
  | .arr (v :: r) =>
    '[' :: newLine (depth + 1) ++ indentedChars (depth + 1) v ++ indentedItems depth r ++
      newLine depth ++ [']']
  | .obj [] => ['\x7b', '\x7d']
  | .obj ((k, v) :: r) =>
    '\x7b' :: newLine (depth + 1) ++ stringChars k ++ [':', ' '] ++ indentedChars (depth + 1) v ++
      indentedMembers depth r ++ newLine depth ++ ['\x7d']
  | .null => "null".toList
  | .bool b => (if b then "true" else "false").toList
  | .int i => (toString i).toList
  | .float x => x.documentChars
  | .str s => stringChars s

/-- The items after the first. -/
def indentedItems (depth : Nat) : List Json → List Char
  | [] => []
  | v :: r => ',' :: newLine (depth + 1) ++ indentedChars (depth + 1) v ++ indentedItems depth r

/-- The members after the first. -/
def indentedMembers (depth : Nat) : List (String × Json) → List Char
  | [] => []
  | (k, v) :: r =>
    ',' :: newLine (depth + 1) ++ stringChars k ++ [':', ' '] ++ indentedChars (depth + 1) v ++
      indentedMembers depth r

end

/-- The text of a value with two spaces of indentation a level. -/
def indented (v : Json) : String :=
  String.ofList (v.indentedChars 0)

end RecipeFlow.Json
