import RecipeFlow.Number.Binary64

/-! The fewest decimal digits that read back as a given binary number. -/
namespace RecipeFlow

/-- Decimal digits, the first of which stands before the point, and the power of ten of that
first digit. -/
structure Digits where
  digits : List Char
  exponent : Int
  deriving DecidableEq, Repr

namespace Binary64

/-- The power of ten of the first digit of a positive ratio, found from an estimate. -/
def leadingPower (num den : Nat) : Int :=
  let estimate : Int := ((toString num).length : Int) - ((toString den).length : Int)
  let atLeast (p : Int) : Bool :=
    if p < 0 then den ≤ num * Nat.pow 10 (-p).toNat else den * Nat.pow 10 p.toNat ≤ num
  if atLeast estimate then estimate else estimate - 1

/-- The two points around a ratio on the grid of `count` digits, the nearer first, and the power of
ten of the last digit. -/
def gridPoints (num den : Nat) (count : Nat) : Nat × Nat × Int :=
  let last := leadingPower num den - (count : Int) + 1
  let (a, b) :=
    if last < 0 then (num * Nat.pow 10 (-last).toNat, den)
    else (num, den * Nat.pow 10 last.toNat)
  let below := a / b
  if roundDiv a b = below then (below, below + 1, last) else (below + 1, below, last)

/-- The first grid, from `count` digits on, with a point that reads back; of two such points the
nearer counts. -/
def shortestFrom (num den : Nat) : Nat → Nat → Nat × Int
  | 0, count => let (n, _, last) := gridPoints num den count; (n, last)
  | fuel + 1, count =>
    let (n, n', last) := gridPoints num den count
    if ofDecimal false n last == ofRatio false num den then (n, last)
    else if ofDecimal false n' last == ofRatio false num den then (n', last)
    else shortestFrom num den fuel (count + 1)

/-- Drops the zeros at the end of a digit string. -/
def dropZeros (cs : List Char) : List Char :=
  (cs.reverse.dropWhile (· == '0')).reverse

/-- The shortest digits of a mantissa and exponent; zero has the one digit 0. -/
def shortest (m : Nat) (e : Int) : Digits :=
  if m == 0 then ⟨['0'], 0⟩
  else
    let (a, b) := ratio m e
    let (n, last) := shortestFrom a b 16 1
    let ds := (toString n).toList
    ⟨dropZeros ds, last + (ds.length : Int) - 1⟩

/-- The digits written out around a decimal point, with at least one digit on either side. -/
def positional (d : Digits) : List Char :=
  if d.exponent < 0 then
    ['0', '.'] ++ List.replicate ((-d.exponent).toNat - 1) '0' ++ d.digits
  else
    let whole := d.exponent.toNat + 1
    let front := d.digits.take whole
    let back := d.digits.drop whole
    front ++ List.replicate (whole - front.length) '0' ++ ['.'] ++
      (if back.isEmpty then ['0'] else back)

/-- The digits with a power of ten, the sign of the power always written. -/
def scientific (d : Digits) : List Char :=
  let front := d.digits.take 1
  let back := d.digits.drop 1
  let mark : List Char := if d.exponent < 0 then ['e', '-'] else ['e', '+']
  front ++ (if back.isEmpty then [] else '.' :: back) ++ mark ++
    (toString d.exponent.natAbs).toList

/-- The text of a number in a document: positional from 10^-5 up to below 10^16. -/
def documentChars : Binary64 → List Char
  | .finite s m e =>
    let d := shortest m e
    let body := if -5 ≤ d.exponent && d.exponent ≤ 15 then positional d else scientific d
    if s then '-' :: body else body
  | .infinite _ | .nan => ['n', 'u', 'l', 'l']

/-- The text of a number in a message: always positional. -/
def messageText : Binary64 → String
  | .finite s m e =>
    let body := positional (shortest m e)
    String.ofList (if s then '-' :: body else body)
  | .infinite s => if s then "-inf" else "inf"
  | .nan => "NaN"

end Binary64

end RecipeFlow
