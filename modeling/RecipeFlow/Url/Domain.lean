import RecipeFlow.Url.DomainChar

/-! Domain names and their ASCII form. -/
namespace RecipeFlow.Domain

/-- The ASCII characters that a domain may not hold. -/
def isForbidden (c : Char) : Bool :=
  c.toNat ≤ 0x20 || c.toNat == 0x7F ||
    ['%', '#', '/', ':', '<', '>', '?', '@', '[', '\\', ']', '^', '|'].contains c

/-- The bias of Punycode after a delta. -/
def adapt (delta count : Nat) (first : Bool) : Nat :=
  let d := if first then delta / 700 else delta / 2
  let d := d + d / count
  let rec go : Nat → Nat → Nat → Nat
    | 0, d, k => k + 36 * d / (d + 38)
    | fuel + 1, d, k => if d > 455 then go fuel (d / 35) (k + 36) else k + 36 * d / (d + 38)
  go 64 d 0

/-- The value of a Punycode digit. -/
def punyDigit? (c : Char) : Option Nat :=
  if 'a' ≤ c && c ≤ 'z' then some (c.toNat - 97)
  else if Text.isDigit c then some (c.toNat - 22)
  else none

/-- The Punycode digit of a value below 36. -/
def punyChar (n : Nat) : Char :=
  if n < 26 then Char.ofNat (97 + n) else Char.ofNat (22 + n)

/-- The threshold of a digit's place. -/
def threshold (k bias : Nat) : Nat :=
  if k ≤ bias then 1 else if k ≥ bias + 26 then 26 else k - bias

/-- A variable-length integer and what follows it. -/
def deltaFrom? (bias : Nat) : Nat → Nat → Nat → Nat → List Char → Option (Nat × List Char)
  | 0, _, _, _, _ => none
  | _ + 1, _, _, _, [] => none
  | fuel + 1, i, w, k, c :: r => do
    let d ← punyDigit? c
    let i := i + d * w
    if i ≥ Nat.pow 2 31 then none
    else
      let t := threshold k bias
      if d < t then some (i, r) else deltaFrom? bias fuel i (w * (36 - t)) (k + 36) r

/-- The characters that the extended part of a Punycode label inserts into its basic part. -/
def insertFrom? : Nat → Nat → Nat → Nat → List Char → List Char → Option (List Char)
  | _, _, _, _, out, [] => some out
  | 0, _, _, _, _, _ => none
  | fuel + 1, n, i, bias, out, cs => do
    let (i', r) ← deltaFrom? bias (cs.length + 1) i 1 36 cs
    let count := out.length + 1
    let bias := adapt (i' - i) count (i == 0)
    let n := n + i' / count
    let i := i' % count
    if n ≥ 0x110000 || (0xD800 ≤ n && n < 0xE000) || n < 0x80 then none
    else insertFrom? fuel n (i + 1) bias (out.take i ++ [Char.ofNat n] ++ out.drop i) r

/-- The label that a Punycode text writes: its basic part stands before the last hyphen. -/
def punyDecode? (cs : List Char) : Option (List Char) :=
  let tail := (cs.reverse.takeWhile (· != '-')).reverse
  let base := (cs.take (cs.length - tail.length)).dropLast
  insertFrom? (cs.length + 1) 128 0 72 base tail

/-- The digits of a delta. -/
def deltaChars (bias : Nat) : Nat → Nat → Nat → List Char
  | 0, _, _ => []
  | fuel + 1, q, k =>
    let t := threshold k bias
    if q < t then [punyChar q]
    else punyChar (t + (q - t) % (36 - t)) :: deltaChars bias fuel ((q - t) / (36 - t)) (k + 36)

/-- One round over a label: writes the delta of each occurrence of `n`. -/
def encodeRound (n basic : Nat) :
    List Char → Nat × Nat × Nat × List Char → Nat × Nat × Nat × List Char
  | [], s => s
  | c :: r, (delta, h, bias, out) =>
    if c.toNat < n then encodeRound n basic r (delta + 1, h, bias, out)
    else if c.toNat = n then
      encodeRound n basic r
        (0, h + 1, adapt delta (h + 1) (h == basic), out ++ deltaChars bias 64 delta 36)
    else encodeRound n basic r (delta, h, bias, out)

/-- The extended part of a label, from the character `n` on. -/
def encodeFrom (label : List Char) (basic : Nat) :
    Nat → Nat → Nat × Nat × Nat × List Char → List Char
  | 0, _, (_, _, _, out) => out
  | fuel + 1, n, (delta, h, bias, out) =>
    match ((label.map Char.toNat).filter (n ≤ ·)).min? with
    | none => out
    | some m =>
      let (delta, h, bias, out) :=
        encodeRound m basic label (delta + (m - n) * (h + 1), h, bias, out)
      encodeFrom label basic fuel (m + 1) (delta + 1, h, bias, out)

/-- The Punycode text of a label. -/
def punyEncode (label : List Char) : List Char :=
  let basic := label.filter (·.toNat < 0x80)
  let front := if basic.isEmpty then [] else basic ++ ['-']
  front ++ encodeFrom label basic.length (label.length + 1) 128 (0, basic.length, 72, [])

/-- The mark of an encoded label. -/
def aceMark : List Char := ['x', 'n', '-', '-']

/-- Whether a label beyond ASCII is in its final form. -/
def isFinal (label : List Char) : Bool :=
  !label.head?.any isMark && foldAll? label = some label

/-- The ASCII form of a label, whose characters have been folded. -/
def labelToAscii? (label : List Char) : Option (List Char) :=
  if label.all (·.toNat < 0x80) then
    if aceMark.isPrefixOf label then
      match punyDecode? (label.drop 4) with
      | some u =>
        if u.all (·.toNat < 0x80) || !isFinal u || aceMark ++ punyEncode u ≠ label then none
        else some label
      | none => none
    else some label
  else if isFinal label then some (aceMark ++ punyEncode label)
  else none

/-- The ASCII form of a domain. Empty labels stay. -/
def toAscii? (cs : List Char) : Option (List Char) := do
  let cs ← foldAll? cs
  if cs.any isForbidden then none
  else ((Text.split '.' cs).mapM labelToAscii?).map ['.'].intercalate

end RecipeFlow.Domain
