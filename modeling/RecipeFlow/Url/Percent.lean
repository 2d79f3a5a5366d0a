import RecipeFlow.Text.Blank
import RecipeFlow.Text.Utf8

/-! Percent-encoding, the sets of characters it applies to, and form encoding. -/
namespace RecipeFlow.Url

/-- Capital hexadecimal digit of a number below sixteen. -/
def hexDigit (n : Nat) : Char :=
  if n < 10 then Char.ofNat (48 + n) else Char.ofNat (55 + n)

/-- A percent sign and the two digits of a byte. -/
def escapeByte (b : UInt8) : List Char :=
  ['%', hexDigit (b.toNat / 16), hexDigit (b.toNat % 16)]

/-- Encodes the characters of a set, byte by byte. -/
def percentEncode (set : Char → Bool) (cs : List Char) : List Char :=
  cs.flatMap fun c => if set c then (Text.encodeChar c).flatMap escapeByte else [c]

/-- Decodes each percent sign with two digits, leaving all else as it is. -/
def percentDecode : List UInt8 → List UInt8
  | a :: b :: c :: r =>
    if a = 0x25 then
      match Text.digits? 16 [Char.ofNat b.toNat, Char.ofNat c.toNat] with
      | some n => n.toUInt8 :: percentDecode r
      | none => a :: percentDecode (b :: c :: r)
    else a :: percentDecode (b :: c :: r)
  | bs => bs

/-- Control characters and everything beyond ASCII. -/
def controlSet (c : Char) : Bool :=
  c.toNat < 0x20 || c.toNat ≥ 0x7F

def fragmentSet (c : Char) : Bool :=
  controlSet c || [' ', '"', '<', '>', '\x60'].contains c

def querySet (c : Char) : Bool :=
  controlSet c || [' ', '"', '#', '<', '>'].contains c

/-- The query of a special scheme also encodes single quotes. -/
def specialQuerySet (c : Char) : Bool :=
  querySet c || c == '\''

def pathSet (c : Char) : Bool :=
  fragmentSet c || ['#', '?', '\x7b', '\x7d'].contains c

def userinfoSet (c : Char) : Bool :=
  pathSet c || ['/', ':', ';', '=', '@', '[', '\\', ']', '^', '|'].contains c

/-- The bytes that form encoding leaves as they are. -/
def isFormSafe (c : Char) : Bool :=
  Text.isAsciiLetter c || Text.isDigit c || ['*', '-', '.', '_'].contains c

/-- Form encoding: a space becomes a plus sign, other bytes that are not safe are escaped. -/
def formEncode (s : String) : String :=
  String.ofList (s.toList.flatMap fun c =>
    if c = ' ' then ['+']
    else if isFormSafe c then [c]
    else (Text.encodeChar c).flatMap escapeByte)

end RecipeFlow.Url
