/-! Blank characters, trimming and lines of a text. -/
namespace RecipeFlow.Text

/-- A blank is a character with the Unicode property White_Space. -/
def isBlank (c : Char) : Bool :=
  let n := c.toNat
  (9 ≤ n && n ≤ 13) || n == 0x20 || n == 0x85 || n == 0xA0 || n == 0x1680 ||
    (0x2000 ≤ n && n ≤ 0x200A) || n == 0x2028 || n == 0x2029 || n == 0x202F ||
    n == 0x205F || n == 0x3000

/-- Drops what satisfies `p` from the end of a list. -/
def dropEnd (p : Char → Bool) (cs : List Char) : List Char :=
  (cs.reverse.dropWhile p).reverse

/-- Drops the blanks at both ends. -/
def trimChars (cs : List Char) : List Char :=
  dropEnd isBlank (cs.dropWhile isBlank)

/-- Drops the blanks at both ends of a text. -/
def trim (s : String) : String :=
  String.ofList (trimChars s.toList)

/-- A text is blank when it holds nothing but blanks. -/
def isBlankText (s : String) : Bool :=
  s.toList.all isBlank

/-- Drops every slash at the end of a text. -/
def trimSlashes (s : String) : String :=
  String.ofList (dropEnd (· == '/') s.toList)

/-- What follows the last slash, or everything when there is none. -/
def afterLastSlash (cs : List Char) : List Char :=
  (cs.reverse.takeWhile (· != '/')).reverse

/-- Drops one carriage return from the end of a line that is held in reverse. -/
def dropReturn : List Char → List Char
  | '\r' :: r => r
  | cs => cs

/-- The lines of a text, the current one held in reverse: a line ends with a line feed, which
takes one carriage return before it along, and the last line may lack its end. -/
def linesFrom (line : List Char) : List Char → List (List Char)
  | [] => if line.isEmpty then [] else [line.reverse]
  | c :: r => if c = '\n' then (dropReturn line).reverse :: linesFrom [] r
    else linesFrom (c :: line) r

/-- The lines of a text without their ends. -/
def lines (cs : List Char) : List (List Char) :=
  linesFrom [] cs

/-- The pieces between separators, the current one held in reverse. -/
def splitFrom (sep : Char) (piece : List Char) : List Char → List (List Char)
  | [] => [piece.reverse]
  | c :: r => if c = sep then piece.reverse :: splitFrom sep [] r
    else splitFrom sep (c :: piece) r

/-- The pieces of a text between the occurrences of a separator. -/
def split (sep : Char) (cs : List Char) : List (List Char) :=
  splitFrom sep [] cs

/-- An ASCII letter. -/
def isAsciiLetter (c : Char) : Bool :=
  ('a' ≤ c && c ≤ 'z') || ('A' ≤ c && c ≤ 'Z')

/-- An ASCII decimal digit. -/
def isDigit (c : Char) : Bool :=
  '0' ≤ c && c ≤ '9'

/-- The value of a digit in a base of at most sixteen, if it is one. -/
def digitValue? (base : Nat) (c : Char) : Option Nat :=
  let v := if isDigit c then some (c.toNat - 48)
    else if 'a' ≤ c && c ≤ 'f' then some (c.toNat - 87)
    else if 'A' ≤ c && c ≤ 'F' then some (c.toNat - 55)
    else none
  v.filter (· < base)

/-- The number a non-empty run of digits writes in a base, leading zeros allowed. -/
def digits? (base : Nat) (cs : List Char) : Option Nat :=
  if cs.isEmpty then none
  else cs.foldlM (fun n c => (digitValue? base c).map (n * base + ·)) 0

/-- Lower case for the ASCII capitals, every other character as it is. -/
def lowerAscii (c : Char) : Char :=
  if 'A' ≤ c && c ≤ 'Z' then Char.ofNat (c.toNat + 32) else c

/-- Lower-case hexadecimal digits of a number, at least one. -/
def hexDigits (n : Nat) : List Char :=
  Nat.toDigits 16 n

/-- The decimal digits of a number, with zeros in front up to the given width. -/
def padded (width n : Nat) : String :=
  let ds := (toString n).toList
  String.ofList (List.replicate (width - ds.length) '0' ++ ds)

end RecipeFlow.Text
