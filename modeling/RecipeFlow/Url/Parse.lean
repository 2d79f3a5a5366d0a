import RecipeFlow.Url.Host

/-! Reading absolute locators into their normal form. -/
namespace RecipeFlow.Url

/-- Control characters and spaces, which are trimmed at both ends. -/
def isTrimmed (c : Char) : Bool :=
  c.toNat ≤ 0x20

/-- Tabs and line ends, which are skipped everywhere. -/
def isIgnored (c : Char) : Bool :=
  c == '\t' || c == '\n' || c == '\r'

/-- The characters of a text that count. -/
def significant (s : List Char) : List Char :=
  (Text.dropEnd isTrimmed (s.dropWhile isTrimmed)).filter (!isIgnored ·)

def isSchemeChar (c : Char) : Bool :=
  Text.isAsciiLetter c || Text.isDigit c || c == '+' || c == '-' || c == '.'

/-- The scheme, in small letters, and what follows its colon. -/
def scheme? (cs : List Char) : Option (List Char × List Char) :=
  match cs with
  | [] => none
  | c :: _ =>
    if Text.isAsciiLetter c then
      match cs.dropWhile isSchemeChar with
      | ':' :: r => some ((cs.takeWhile isSchemeChar).map Text.lowerAscii, r)
      | _ => none
    else none

/-- Whether a character separates path segments. -/
def isSlash (special : Bool) (c : Char) : Bool :=
  c == '/' || (special && c == '\\')

/-- Whether a character ends the authority. -/
def endsAuthority (special : Bool) (c : Char) : Bool :=
  isSlash special c || c == '?' || c == '#'

/-- Splits at the last at sign. -/
def splitLastAt (cs : List Char) : Option (List Char × List Char) :=
  if cs.contains '@' then
    let after := (cs.reverse.takeWhile (· != '@')).reverse
    some ((cs.take (cs.length - after.length)).dropLast, after)
  else none

/-- Splits a host from its port: at the first colon outside brackets. -/
def splitPort (inBrackets : Bool) : List Char → List Char × Option (List Char)
  | [] => ([], none)
  | c :: r =>
    if c == ':' && !inBrackets then ([], some r)
    else
      let (h, p) := splitPort (if c == '[' then true else if c == ']' then false else inBrackets) r
      (c :: h, p)

/-- A port that is not the scheme's own; an empty one counts as none. -/
def port? (scheme ds : List Char) : Except UrlFault (Option Nat) :=
  if ds.isEmpty then .ok none
  else match Text.digits? 10 ds with
    | some n => if n > 65535 then .error .invalidPort
      else .ok (if defaultPort? scheme = some n then none else some n)
    | none => .error .invalidPort

/-- Dots, plain or encoded, by their number. -/
def dots : List Char → Nat
  | [] => 0
  | ['.'] => 1
  | ['.', '.'] => 2
  | [a, b, c] => if a == '%' && b == '2' && (c == 'e' || c == 'E') then 1 else 0
  | [a, b, c, d] =>
    if a == '.' && b == '%' && c == '2' && (d == 'e' || d == 'E') then 2
    else if a == '%' && b == '2' && (c == 'e' || c == 'E') && d == '.' then 2
    else 0
  | [a, b, c, d, e, f] =>
    if a == '%' && b == '2' && (c == 'e' || c == 'E') && d == '%' && e == '2' &&
      (f == 'e' || f == 'E') then 2 else 0
  | _ => 0

/-- A letter and a colon, which a path of a file keeps at its front. -/
def isDrive (normal : Bool) : List Char → Bool
  | [a, b] => Text.isAsciiLetter a && (b == ':' || (!normal && b == '|'))
  | _ => false

/-- Drops the last segment, held in reverse; the drive of a file stays. -/
def shorten (file : Bool) (rev : List (List Char)) : List (List Char) :=
  match rev with
  | [] => []
  | [s] => if file && isDrive true s then [s] else []
  | _ :: r => r

/-- Appends segments to a path held in reverse: one dot stays where it is and two go up. -/
def appendSegments (file : Bool) (rev : List (List Char)) : List (List Char) → List (List Char)
  | [] => rev.reverse
  | s :: r =>
    let last := r.isEmpty
    match dots s with
    | 2 => let up := shorten file rev
      appendSegments file (if last then [] :: up else up) r
    | 1 => appendSegments file (if last then [] :: rev else rev) r
    | _ =>
      let s := if file && rev.isEmpty && isDrive false s then s.take 1 ++ [':'] else s
      appendSegments file (s :: rev) r

/-- Splits at slashes. -/
def segmentsOf (special : Bool) (cs : List Char) : List (List Char) :=
  Text.split '/' (cs.map fun c => if isSlash special c then '/' else c)

/-- The path of segments from a text without its first slash. -/
def pathOf (special file : Bool) (cs : List Char) : List (List Char) :=
  let ss := (segmentsOf special cs).map (percentEncode pathSet)
  let ps := appendSegments file [] ss
  if file then
    let rest := ps.dropWhile List.isEmpty
    if rest.isEmpty then [[]] else rest
  else ps

/-- Splits a text into what comes before, the query and the fragment. -/
def splitTail (cs : List Char) : List Char × Option (List Char) × Option (List Char) :=
  let body := cs.takeWhile (· != '#')
  let fragment := match cs.dropWhile (· != '#') with
    | _ :: f => some f
    | [] => none
  let query := match body.dropWhile (· != '?') with
    | _ :: q => some q
    | [] => none
  (body.takeWhile (· != '?'), query, fragment)

/-- Puts the encoded query and fragment to a locator. -/
def withTail (special : Bool) (query fragment : Option (List Char)) (u : Url) : Url :=
  { u with
    query := query.map (percentEncode (if special then specialQuerySet else querySet))
    fragment := fragment.map (percentEncode fragmentSet) }

/-- User name and password of the part before the at sign. -/
def credentials (cs : List Char) : List Char × List Char :=
  let name := cs.takeWhile (· != ':')
  let word := (cs.dropWhile (· != ':')).drop 1
  (percentEncode userinfoSet name, percentEncode userinfoSet word)

/-- The locator whose authority starts here. -/
def withAuthority (scheme : List Char) (special : Bool) (cs : List Char) :
    Except UrlFault Url := do
  let authority := cs.takeWhile (!endsAuthority special ·)
  let rest := cs.dropWhile (!endsAuthority special ·)
  let (user, word, hostPort, named) ← match splitLastAt authority with
    | none => pure ([], [], authority, false)
    | some (info, h) =>
      if info.isEmpty then
        if h.isEmpty && !rest.isEmpty then throw .emptyHost
        else pure ([], [], h, false)
      else
        let (n, w) := credentials info
        pure (n, w, h, !(n.isEmpty && w.isEmpty))
  let (h, p) := splitPort false hostPort
  if special && h.isEmpty then throw .emptyHost
  let host ← if special then host? h else opaqueHost? h
  if host.isEmpty && p.isSome then throw .emptyHost
  let port ← match p with
    | some ds => port? scheme ds
    | none => pure none
  if host.isEmpty && named then throw .emptyHost
  let (path, query, fragment) := splitTail rest
  let segments := match path with
    | [] => if special then .segments [[]] else .segments []
    | _ :: r => .segments (pathOf special false r)
  return withTail special query fragment
    ⟨scheme, user, word, some host, port, segments, none, none⟩

/-- The locator of a file, after its scheme. -/
def fileUrl (cs : List Char) : Except UrlFault Url := do
  let scheme := "file".toList
  let ends := endsAuthority true
  let make (host path : List Char) : Url :=
    let (path, query, fragment) := splitTail path
    withTail true query fragment
      ⟨scheme, [], [], some host, none, .segments (pathOf true true path), none, none⟩
  match cs with
  | a :: b :: r =>
    if isSlash true a && isSlash true b then
      let h := r.takeWhile (!ends ·)
      if isDrive false h then return make [] r
      else
        let rest := r.dropWhile (!ends ·)
        let path := match rest with
          | c :: p => if isSlash true c then p else rest
          | [] => []
        if h.isEmpty then return make [] path
        else
          let host ← host? h
          return make (if host = "localhost".toList then [] else host) path
    else if isSlash true a then return make [] (b :: r)
    else return make [] cs
  | [a] => return make [] (if isSlash true a then [] else [a])
  | [] => return make [] []

/-- The locator of a scheme that is neither special nor a file's, after the scheme. -/
def otherUrl (scheme cs : List Char) : Except UrlFault Url :=
  match cs with
  | '/' :: '/' :: r => withAuthority scheme false r
  | '/' :: r =>
    let (path, query, fragment) := splitTail r
    .ok (withTail false query fragment
      ⟨scheme, [], [], none, none, .segments (pathOf false false path), none, none⟩)
  | _ =>
    let (path, query, fragment) := splitTail cs
    .ok (withTail false query fragment
      ⟨scheme, [], [], none, none, .bare (percentEncode controlSet path), none, none⟩)

/-- The absolute locator that a text writes. -/
def parseChars (s : List Char) : Except UrlFault Url :=
  match scheme? (significant s) with
  | none => .error .relative
  | some (scheme, r) =>
    if scheme = "file".toList then fileUrl r
    else if isSpecial scheme then withAuthority scheme true (r.dropWhile (isSlash true))
    else otherUrl scheme r

/-- The absolute locator that a text writes. -/
def parse (s : String) : Except UrlFault Url :=
  parseChars s.toList

/-- The locator as it is requested and shown. -/
def requestText (u : Url) : String :=
  String.ofList u.requestChars

end RecipeFlow.Url
