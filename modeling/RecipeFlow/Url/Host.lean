import RecipeFlow.Url.Basic
import RecipeFlow.Url.Percent
import RecipeFlow.Url.Domain

/-! Hosts: domain names and addresses of the two kinds. -/
namespace RecipeFlow.Url

/-- The value of one part of an IPv4 address: hexadecimal after 0x, octal after another zero. The
outer option tells whether it is a number, the inner one whether it fits 32 bits. -/
def ipv4Number? (cs : List Char) : Option (Option Nat) :=
  let value (base : Nat) (ds : List Char) : Option (Option Nat) :=
    if ds.isEmpty then some (some 0)
    else (Text.digits? base ds).map fun n => if n < Nat.pow 2 32 then some n else none
  match cs with
  | [] => none
  | '0' :: 'x' :: r | '0' :: 'X' :: r => value 16 r
  | '0' :: c :: r => value 8 (c :: r)
  | _ => value 10 cs

/-- The parts of a domain between its dots, without an empty part at the end. -/
def dottedParts (cs : List Char) : List (List Char) :=
  let ps := Text.split '.' cs
  if ps.length > 1 && ps.getLast? == some [] then ps.dropLast else ps

/-- Whether the last part of a domain is a number, so that it must be an address. -/
def endsInNumber (cs : List Char) : Bool :=
  match (dottedParts cs).getLast? with
  | none | some [] => false
  | some p => p.all Text.isDigit || (ipv4Number? p).isSome

/-- The value of an IPv4 address of at most four parts, the last of which fills what is left. -/
def ipv4Value? (cs : List Char) : Option Nat := do
  let parts := dottedParts cs
  if parts.length > 4 then none
  else
    let ns ← parts.mapM fun p => (ipv4Number? p).join
    let last ← ns.getLast?
    let front := ns.dropLast
    if last ≥ Nat.pow 256 (4 - front.length) || front.any (· > 255) then none
    else return front.zipIdx.foldl (fun v (n, i) => v + n * Nat.pow 256 (3 - i)) last

/-- An IPv4 address in four decimal parts. -/
def ipv4Chars (n : Nat) : List Char :=
  (".".intercalate ([16777216, 65536, 256, 1].map fun k => toString (n / k % 256))).toList

/-- The four numbers of an IPv4 address inside an IPv6 one: decimal, without zeros in front. -/
def embeddedIpv4? (cs : List Char) : Option (List Nat) := do
  let parts := Text.split '.' cs
  if parts.length ≠ 4 then none
  else parts.mapM fun p =>
    if p.length > 1 && p.head? == some '0' then none
    else (Text.digits? 10 p).filter (· ≤ 255)

/-- The sixteen-bit pieces of the groups between colons; the last group may be an IPv4 address. -/
def ipv6Pieces? (groups : List (List Char)) : Option (List Nat) :=
  match groups with
  | [] => some []
  | [g] =>
    if g.contains '.' then
      (embeddedIpv4? g).bind fun ns => match ns with
        | [a, b, c, d] => some [a * 256 + b, c * 256 + d]
        | _ => none
    else if g.length ≤ 4 then (Text.digits? 16 g).map ([·]) else none
  | g :: r => do
    let n ← if g.length ≤ 4 then Text.digits? 16 g else none
    let ns ← ipv6Pieces? r
    return n :: ns

/-- Splits at the first double colon. -/
def splitDoubleColon : List Char → List Char × Option (List Char)
  | ':' :: ':' :: r => ([], some r)
  | c :: r => let (a, b) := splitDoubleColon r; (c :: a, b)
  | [] => ([], none)

/-- The groups of one side of a double colon. -/
def colonGroups (cs : List Char) : List (List Char) :=
  if cs.isEmpty then [] else Text.split ':' cs

/-- The eight pieces of an IPv6 address; a double colon stands for zeros. -/
def ipv6Value? (cs : List Char) : Option (List Nat) :=
  match splitDoubleColon cs with
  | (a, none) => (ipv6Pieces? (colonGroups a)).filter (·.length = 8)
  | (a, some b) =>
    if a.contains '.' then none
    else do
      let xs ← ipv6Pieces? (colonGroups a)
      let ys ← ipv6Pieces? (colonGroups b)
      if xs.length + ys.length > 7 then none
      else return xs ++ List.replicate (8 - xs.length - ys.length) 0 ++ ys

/-- The length of the run of zeros at the front. -/
def zeroRun (ns : List Nat) : Nat :=
  (ns.takeWhile (· == 0)).length

/-- Start and length of the first longest run of at least two zeros. -/
def longestZeroRun (ns : List Nat) : Option (Nat × Nat) :=
  (List.range ns.length).foldl (fun best i =>
    let n := zeroRun (ns.drop i)
    match best with
    | some (_, m) => if n > m then some (i, n) else best
    | none => if n ≥ 2 then some (i, n) else none) none

/-- Pieces in hexadecimal, with colons between them. -/
def pieceChars (ns : List Nat) : List Char :=
  [':'].intercalate (ns.map Text.hexDigits)

/-- An IPv6 address in brackets, its longest run of zeros left out. -/
def ipv6Chars (ns : List Nat) : List Char :=
  let body := match longestZeroRun ns with
    | some (i, n) => pieceChars (ns.take i) ++ [':', ':'] ++ pieceChars (ns.drop (i + n))
    | none => pieceChars ns
  '[' :: body ++ [']']

/-- The IPv6 address in brackets. -/
def bracketed? (cs : List Char) : Except UrlFault (List Char) :=
  if cs.getLast? ≠ some ']' then .error .invalidIpv6
  else match ipv6Value? (cs.drop 1).dropLast with
    | some ns => .ok (ipv6Chars ns)
    | none => .error .invalidIpv6

/-- The normal form of the host of a special scheme. -/
def host? (cs : List Char) : Except UrlFault (List Char) :=
  if cs.head? = some '[' then bracketed? cs
  else match (Text.decode? (percentDecode (Text.encode cs))).bind Domain.toAscii? with
    | none => .error .invalidDomain
    | some d =>
      if d.isEmpty then .error .emptyHost
      else if endsInNumber d then
        match ipv4Value? d with
        | some n => .ok (ipv4Chars n)
        | none => .error .invalidIpv4
      else .ok d

/-- The characters that the host of another scheme may not hold. -/
def isForbiddenInHost (c : Char) : Bool :=
  ['\x00', '\t', '\n', '\r', ' ', '#', '/', ':', '<', '>', '?', '@', '[', '\\', ']', '^',
    '|'].contains c

/-- The normal form of the host of a scheme that is not special. -/
def opaqueHost? (cs : List Char) : Except UrlFault (List Char) :=
  if cs.head? = some '[' then bracketed? cs
  else if cs.any isForbiddenInHost then .error .invalidDomainCharacter
  else .ok (percentEncode controlSet cs)

end RecipeFlow.Url
