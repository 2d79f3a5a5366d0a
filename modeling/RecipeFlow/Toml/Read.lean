import RecipeFlow.Toml.Quoted
import RecipeFlow.Toml.Scalar

/-! Reading TOML documents: key lines below table headers. Tables are drafts while lines may still
add to them. -/
namespace RecipeFlow.Toml

/-- A value of a document that is being read. -/
inductive Draft where
  | value (v : Toml)
  /-- A table; an implicit one was named on the way to another, and a dotted one by keys. -/
  | table (implicit dotted : Bool) (members : List (String × Draft))
  /-- The tables of an array of tables, the last one first. -/
  | tables (last : List (String × Draft)) (earlier : List (List (String × Draft)))
  deriving Inhabited

/-- The members of a table that is being read, in the order of the document. -/
abbrev Draft.Members := List (String × Draft)

namespace Draft

mutual

/-- The value that a draft has become. -/
def finish : Draft → Toml
  | value v => v
  | table _ _ ms => .table (Table.ofList (finishMembers ms))
  | tables last earlier => .array ((Toml.table (Table.ofList (finishMembers last)) ::
      finishTables earlier).reverse)

def finishMembers : List (String × Draft) → List (String × Toml)
  | [] => []
  | (k, d) :: r => (k, finish d) :: finishMembers r

def finishTables : List (List (String × Draft)) → List Toml
  | [] => []
  | ms :: r => .table (Table.ofList (finishMembers ms)) :: finishTables r

end

/-- Puts a draft under a key, in place of what is there. -/
def put (k : String) (d : Draft) : Members → Members
  | [] => [(k, d)]
  | (k', d') :: r => if k = k' then (k, d) :: r else (k', d') :: put k d r

/-- Changes the table at a path, which keys or headers lead to. Keys may not enter a table that a
header has defined, and nothing may enter a finished value. -/
def enter (dotted : Bool) : List String → (Members → Option Members) → Members → Option Members
  | [], f, ms => f ms
  | k :: path, f, ms =>
    match Table.find? k ms with
    | none => (enter dotted path f []).map fun inner => put k (.table true dotted inner) ms
    | some (.table implicit d inner) =>
      if dotted && !implicit then none
      else (enter dotted path f inner).map fun inner => put k (.table implicit d inner) ms
    | some (.tables last earlier) =>
      if dotted then none
      else (enter dotted path f last).map fun last => put k (.tables last earlier) ms
    | some (.value _) => none

/-- Adds a value under a new key. -/
def addValue (k : String) (v : Toml) (ms : Members) : Option Members :=
  match Table.find? k ms with
  | none => some (put k (.value v) ms)
  | some _ => none

/-- Opens the table of a header: it is new, or was only named on the way to another so far. -/
def openTable (k : String) (ms : Members) : Option Members :=
  match Table.find? k ms with
  | none => some (put k (.table false false []) ms)
  | some (.table true false inner) => some (put k (.table false false inner) ms)
  | some _ => none

/-- Opens the next table of an array of tables. -/
def openNext (k : String) (ms : Members) : Option Members :=
  match Table.find? k ms with
  | none => some (put k (.tables [] []) ms)
  | some (.tables last earlier) => some (put k (.tables [] (last :: earlier)) ms)
  | some _ => none

end Draft

/-- The characters of keys without quotes. -/
def isKeyChar (c : Char) : Bool :=
  Text.isAsciiLetter c || Text.isDigit c || c == '_' || c == '-'

/-- One part of a key. -/
def keyPart? (cs : List Char) : Option (String × List Char) :=
  match cs with
  | '"' :: _ | '\'' :: _ => quoted? cs
  | _ =>
    let k := cs.takeWhile isKeyChar
    if k.isEmpty then none else some (String.ofList k, cs.dropWhile isKeyChar)

/-- The parts of a key between dots, and what follows the space behind them. -/
def key? : Nat → List Char → Option (List String × List Char)
  | 0, _ => none
  | fuel + 1, cs =>
    match keyPart? (cs.dropWhile isSpace) with
    | none => none
    | some (k, r) =>
      match r.dropWhile isSpace with
      | '.' :: r' => (key? fuel r').map fun (ks, q) => (k :: ks, q)
      | r' => some ([k], r')

/-- Skips a comment. -/
def skipComment (cs : List Char) : List Char :=
  match cs with
  | '#' :: r => r.dropWhile isPlain
  | _ => cs

/-- What follows the end of a line that holds nothing else than space and a comment. -/
def restOfLine? (cs : List Char) : Option (List Char) :=
  match skipComment (cs.dropWhile isSpace) with
  | [] => some []
  | r => lineEnd? r

/-- Skips space, line ends and comments. -/
def skipLines : Nat → List Char → List Char
  | 0, cs => cs
  | fuel + 1, cs =>
    match skipComment (cs.dropWhile isSpace) with
    | [] => []
    | r =>
      match lineEnd? r with
      | some r' => skipLines fuel r'
      | none => r

/-- The characters that end a value without quotes. -/
def endsScalar (c : Char) : Bool :=
  isSpace c || c == '\n' || c == '\r' || c == '#' || c == ',' || c == '[' || c == ']' ||
    c == '\x7b' || c == '\x7d' || c == '=' || c == '"' || c == '\''

/-- The text of a value without quotes; a space may stand between a date and its time. -/
def scalarText (cs : List Char) : List Char × List Char :=
  let word := cs.takeWhile (!endsScalar ·)
  let rest := cs.dropWhile (!endsScalar ·)
  match rest with
  | ' ' :: c :: r =>
    if dateRest? word == some [] && Text.isDigit c then
      (word ++ ' ' :: (c :: r).takeWhile (!endsScalar ·), (c :: r).dropWhile (!endsScalar ·))
    else (word, rest)
  | _ => (word, rest)

/-- Adds a value at the key that leads to it from a table. -/
def addAt (path : List String) (v : Toml) (ms : Draft.Members) : Option Draft.Members :=
  match path.getLast? with
  | some k => Draft.enter true path.dropLast (Draft.addValue k v) ms
  | none => none

mutual

/-- A value and what follows it. `depth` counts the levels that may still be opened. -/
def value? : Nat → Nat → List Char → Option (Toml × List Char)
  | 0, _, _ => none
  | fuel + 1, depth, cs =>
    match cs with
    | [] => none
    | c :: r =>
      if c == '"' || c == '\'' then (anyQuoted? cs).map fun (s, q) => (.string s, q)
      else if c == '[' then
        if depth ≤ 1 then none else items? fuel (depth - 1) [] (skipLines r.length r)
      else if c == '\x7b' then
        if depth ≤ 1 then none else members? fuel (depth - 1) [] (skipLines r.length r)
      else
        let (word, rest) := scalarText cs
        (scalar? word).map (·, rest)

/-- The items of an array, the earlier ones held in reverse. -/
def items? : Nat → Nat → List Toml → List Char → Option (Toml × List Char)
  | 0, _, _, _ => none
  | fuel + 1, depth, acc, cs =>
    match cs with
    | ']' :: r => some (.array acc.reverse, r)
    | _ =>
      match value? fuel depth cs with
      | none => none
      | some (v, r) =>
        match skipLines r.length r with
        | ',' :: q => items? fuel depth (v :: acc) (skipLines q.length q)
        | ']' :: q => some (.array (v :: acc).reverse, q)
        | _ => none

/-- The members of an inline table. -/
def members? : Nat → Nat → Draft.Members → List Char → Option (Toml × List Char)
  | 0, _, _, _ => none
  | fuel + 1, depth, acc, cs =>
    match cs with
    | '\x7d' :: r => some (Draft.finish (.table false false acc), r)
    | _ =>
      match key? (cs.length + 1) cs with
      | some (path, '=' :: r) =>
        match value? fuel depth (r.dropWhile isSpace) with
        | none => none
        | some (v, r) =>
          match addAt path v acc with
          | none => none
          | some acc =>
            match skipLines r.length r with
            | ',' :: q => members? fuel depth acc (skipLines q.length q)
            | '\x7d' :: q => some (Draft.finish (.table false false acc), q)
            | _ => none
      | _ => none

end

/-- How deep values may nest. -/
def maxDepth : Nat := 80

/-- A header: its path, and whether it opens a table of an array. -/
def header? (cs : List Char) : Option (List String × Bool × List Char) :=
  match cs with
  | '[' :: '[' :: r =>
    match key? (r.length + 1) r with
    | some (path, ']' :: ']' :: q) => some (path, true, q)
    | _ => none
  | '[' :: r =>
    match key? (r.length + 1) r with
    | some (path, ']' :: q) => some (path, false, q)
    | _ => none
  | _ => none

/-- Opens the table of a header. -/
def openAt (path : List String) (next : Bool) (ms : Draft.Members) : Option Draft.Members :=
  match path.getLast? with
  | some k =>
    Draft.enter false path.dropLast (if next then Draft.openNext k else Draft.openTable k) ms
  | none => none

/-- Changes the table that the last header has opened, at a path without finished values. -/
def atTable : List String → (Draft.Members → Option Draft.Members) → Draft.Members →
    Option Draft.Members :=
  Draft.enter false

/-- The lines of a document from one on, below the header whose path is given. -/
def document? : Nat → List String → Draft.Members → List Char → Option Draft.Members
  | 0, _, _, _ => none
  | fuel + 1, current, ms, cs =>
    match skipLines cs.length cs with
    | [] => some ms
    | c :: r =>
      if c == '[' then
        match header? (c :: r) with
        | none => none
        | some (path, next, q) =>
          match openAt path next ms, restOfLine? q with
          | some ms, some q => document? fuel path ms q
          | _, _ => none
      else
        match key? (r.length + 2) (c :: r) with
        | some (path, '=' :: q) =>
          match value? (2 * q.length + 2) maxDepth (q.dropWhile isSpace) with
          | none => none
          | some (v, q) =>
            match atTable current (addAt path v) ms, restOfLine? q with
            | some ms, some q => document? fuel current ms q
            | _, _ => none
        | _ => none

/-- Drops the mark that a document may start with. -/
def dropMark : List Char → List Char
  | '\uFEFF' :: r => r
  | cs => cs

/-- The members of a document's table, `none` when its text is no TOML. -/
def parse? (s : String) : Option (Table Toml) :=
  let cs := dropMark s.toList
  (document? (cs.length + 1) [] [] cs).map fun ms => Table.ofList (Draft.finishMembers ms)

end RecipeFlow.Toml
