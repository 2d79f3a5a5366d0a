import RecipeFlow.Text.Blank
import RecipeFlow.Toml.Basic

/-! Values that are written without quotes: numbers, moments and truth values. -/
namespace RecipeFlow.Toml

/-- The digits that a text starts with, without the underscores that may stand one by one between
them, and what follows. -/
def digitRun? (isDigit : Char → Bool) (cs : List Char) : Option (List Char × List Char) :=
  let inRun (c : Char) := isDigit c || c == '_'
  let groups := Text.split '_' (cs.takeWhile inRun)
  if groups.length > 1 && groups.any List.isEmpty then none
  else some (groups.flatten, cs.dropWhile inRun)

/-- The sign of a number and what follows it. -/
def splitSign : List Char → Bool × List Char
  | '-' :: r => (true, r)
  | '+' :: r => (false, r)
  | cs => (false, cs)

/-- Whether digits start with a zero that is not alone. -/
def hasLeadingZero (ds : List Char) : Bool :=
  ds.length > 1 && ds.head? == some '0'

/-- A whole number, if 128 bits hold it. -/
def wholeNumber (i : Int) : Toml :=
  if -(Nat.pow 2 127) ≤ i && i < Nat.pow 2 128 then .integer i else .outOfRange

/-- A whole number in a base whose mark has been read. -/
def basedInteger? (base : Nat) (cs : List Char) : Option Toml :=
  match digitRun? (fun c => (Text.digitValue? base c).isSome) cs with
  | some (ds, []) => (Text.digits? base ds).map fun n => wholeNumber n
  | _ => none

/-- A decimal whole number. -/
def integer? (cs : List Char) : Option Toml :=
  let (negative, r) := splitSign cs
  match digitRun? Text.isDigit r with
  | some (ds, []) =>
    if hasLeadingZero ds then none
    else (Text.digits? 10 ds).map fun n => wholeNumber (if negative then -(n : Int) else n)
  | _ => none

/-- The digits after a point, which must be there when the point is. -/
def fractionDigits? : List Char → Option (List Char × List Char)
  | '.' :: r => (digitRun? Text.isDigit r).filter fun (ds, _) => !ds.isEmpty
  | cs => some ([], cs)

/-- The power of ten at the end of a number. -/
def power? : List Char → Option Int
  | [] => some 0
  | c :: r =>
    if c == 'e' || c == 'E' then
      let (negative, r) := splitSign r
      match digitRun? Text.isDigit r with
      | some (ds, []) => (Text.digits? 10 ds).map fun n => if negative then -(n : Int) else n
      | _ => none
    else none

/-- A number with a point or a power of ten. -/
def float? (cs : List Char) : Option Toml := do
  let (negative, r) := splitSign cs
  let (whole, r) ← digitRun? Text.isDigit r
  if whole.isEmpty || hasLeadingZero whole || r.isEmpty then none
  else
    let (fraction, r) ← fractionDigits? r
    let e ← power? r
    let n ← Text.digits? 10 (whole ++ fraction)
    match Binary64.ofDecimal negative n (e - (fraction.length : Int)) with
    | .infinite _ => some .outOfRange
    | x => some (.float x)

/-- The number of exactly so many digits and what follows them. -/
def fixedDigits? (count : Nat) (cs : List Char) : Option (Nat × List Char) :=
  let ds := cs.take count
  if ds.length = count && ds.all Text.isDigit then
    (Text.digits? 10 ds).map (·, cs.drop count)
  else none

def isLeapYear (y : Nat) : Bool :=
  y % 4 == 0 && (y % 100 != 0 || y % 400 == 0)

def daysOfMonth (year month : Nat) : Nat :=
  if month = 2 then (if isLeapYear year then 29 else 28)
  else if month = 4 || month = 6 || month = 9 || month = 11 then 30
  else 31

/-- What follows a date that the calendar has. -/
def dateRest? (cs : List Char) : Option (List Char) := do
  let (y, r) ← fixedDigits? 4 cs
  match r with
  | '-' :: r =>
    let (m, r) ← fixedDigits? 2 r
    match r with
    | '-' :: r =>
      let (d, r) ← fixedDigits? 2 r
      if 1 ≤ m && m ≤ 12 && 1 ≤ d && d ≤ daysOfMonth y m then some r else none
    | _ => none
  | _ => none

/-- What follows hours and minutes. -/
def clockRest? (cs : List Char) : Option (List Char) := do
  let (h, r) ← fixedDigits? 2 cs
  match r with
  | ':' :: r =>
    let (m, r) ← fixedDigits? 2 r
    if h ≤ 23 && m ≤ 59 then some r else none
  | _ => none

/-- What follows a time of day, whose seconds may be absent. -/
def timeRest? (cs : List Char) : Option (List Char) := do
  let r ← clockRest? cs
  match r with
  | ':' :: r =>
    let (s, r) ← fixedDigits? 2 r
    if s ≤ 60 then
      match r with
      | '.' :: r =>
        if (r.takeWhile Text.isDigit).isEmpty then none else some (r.dropWhile Text.isDigit)
      | _ => some r
    else none
  | _ => some r

/-- Whether a text is the distance from universal time. -/
def isOffset : List Char → Bool
  | ['Z'] | ['z'] => true
  | '+' :: r | '-' :: r => clockRest? r == some []
  | _ => false

/-- Whether a text is a time, a date, or a date with a time. -/
def isMoment (cs : List Char) : Bool :=
  match dateRest? cs with
  | some [] => true
  | some (c :: r) =>
    (c == 'T' || c == 't' || c == ' ') && match timeRest? r with
      | some [] => true
      | some o => isOffset o
      | none => false
  | none => timeRest? cs == some []

/-- The value of a text without quotes. -/
def scalar? (cs : List Char) : Option Toml :=
  if cs = "true".toList then some (.boolean true)
  else if cs = "false".toList then some (.boolean false)
  else
    let (negative, r) := splitSign cs
    if r = "inf".toList then some (.float (.infinite negative))
    else if r = "nan".toList then some (.float .nan)
    else match cs with
      | '0' :: 'x' :: r => basedInteger? 16 r
      | '0' :: 'o' :: r => basedInteger? 8 r
      | '0' :: 'b' :: r => basedInteger? 2 r
      | _ => if isMoment cs then some .moment else (integer? cs).or (float? cs)

end RecipeFlow.Toml
