import RecipeFlow.Duration.Basic
import RecipeFlow.Text.Blank

/-! Lengths of time as people write them, such as `1h 30m`, and as they stand in messages. -/
namespace RecipeFlow.Duration

/-- Units of time. A month is 30.44 days and a year 365.25 days. -/
inductive TimeUnit where
  | nano | micro | milli | second | minute | hour | day | week | month | year
  deriving DecidableEq, Repr

namespace TimeUnit

/-- The unit of a name. -/
def ofString? (s : String) : Option TimeUnit :=
  if ["nanos", "nsec", "ns"].contains s then some nano
  else if ["usec", "us", "µs"].contains s then some micro
  else if ["millis", "msec", "ms"].contains s then some milli
  else if ["seconds", "second", "secs", "sec", "s"].contains s then some second
  else if ["minutes", "minute", "min", "mins", "m"].contains s then some minute
  else if ["hours", "hour", "hr", "hrs", "h"].contains s then some hour
  else if ["days", "day", "d"].contains s then some day
  else if ["weeks", "week", "wk", "wks", "w"].contains s then some week
  else if ["months", "month", "M"].contains s then some month
  else if ["years", "year", "yr", "yrs", "y"].contains s then some year
  else none

/-- How many of its base units a unit holds: seconds from the hour on, nanoseconds below it. The
base of a whole number of seconds or minutes is the second. -/
def seconds : TimeUnit → Nat
  | nano | micro | milli => 0
  | second => 1
  | minute => 60
  | hour => 3600
  | day => 86400
  | week => 604800
  | month => 2630016
  | year => 31557600

/-- The nanoseconds of a unit below the hour. -/
def nanos : TimeUnit → Nat
  | nano => 1
  | micro => 1000
  | milli => 1000000
  | second => 1000000000
  | minute => 60000000000
  | _ => 0

/-- Units whose whole numbers count in nanoseconds. -/
def isSmall : TimeUnit → Bool
  | nano | micro | milli => true
  | _ => false

/-- Units whose fractions count in whole seconds. -/
def isLarge : TimeUnit → Bool
  | hour | day | week | month | year => true
  | _ => false

end TimeUnit

/-- A number of 64 bits. -/
def checked (n : Nat) : Option Nat :=
  if n < Nat.pow 2 64 then some n else none

/-- A quotient without remainder. -/
def exactly (n d : Nat) : Option Nat :=
  if n % d = 0 then some (n / d) else none

/-- Adds seconds and nanoseconds that fit 64 bits. -/
def add? (d : Duration) (seconds nanos : Nat) : Option Duration := do
  let _ ← checked (d.subNanos + nanos)
  let sum : Duration := ⟨d.nanos + seconds * 1000000000 + nanos⟩
  let _ ← checked sum.seconds
  return sum

/-- Adds a number of units, given with its decimal fraction as numerator and denominator. A
fraction must be a whole number of the unit's finer base. -/
def addUnits? (d : Duration) (n : Nat) (fraction : Option (Nat × Nat)) (u : TimeUnit) :
    Option Duration := do
  let sum ← if u.isSmall then (checked (n * u.nanos)).bind (d.add? 0 ·)
    else (checked (n * u.seconds)).bind (d.add? · 0)
  match fraction with
  | none => return sum
  | some (num, den) =>
    if u = .nano then none
    else if u.isLarge then
      (checked (num * u.seconds)).bind fun k => (exactly k den).bind (sum.add? · 0)
    else (checked (num * u.nanos)).bind fun k => (exactly k den).bind (sum.add? 0 ·)

/-- The characters of unit names. -/
def isUnitChar (c : Char) : Bool :=
  Text.isAsciiLetter c || c == 'µ'

/-- The digits of a fraction as numerator and denominator, and the text from its unit on. Blanks
between digits are skipped. -/
def fractionFrom? (num den : Nat) : List Char → Option ((Nat × Nat) × List Char)
  | [] => if den = 1 then none else some ((num, den), [])
  | c :: r =>
    if Text.isDigit c then do
      let den ← checked (den * 10)
      let num ← checked (num * 10 + (c.toNat - 48))
      fractionFrom? num den r
    else if Text.isBlank c then fractionFrom? num den r
    else if isUnitChar c then (if den = 1 then none else some ((num, den), c :: r))
    else none

/-- The rest of a number, its fraction and the text from its unit on. -/
def numberFrom? (n : Nat) : List Char → Option (Nat × Option (Nat × Nat) × List Char)
  | [] => some (n, none, [])
  | c :: r =>
    if Text.isDigit c then (checked (n * 10 + (c.toNat - 48))).bind fun n => numberFrom? n r
    else if Text.isBlank c then numberFrom? n r
    else if isUnitChar c then some (n, none, c :: r)
    else if c == '.' then (fractionFrom? 0 1 r).map fun (f, r) => (n, some f, r)
    else none

/-- Lengths of number and unit from one on. A unit ends at a blank, a digit or the end. -/
def sumFrom? (total : Duration) : Nat → List Char → Option Duration
  | 0, _ => none
  | fuel + 1, cs =>
    match cs.dropWhile Text.isBlank with
    | [] => some total
    | c :: r =>
      if Text.isDigit c then do
        let (n, fraction, r) ← numberFrom? (c.toNat - 48) r
        let name := r.takeWhile isUnitChar
        let unit ← TimeUnit.ofString? (String.ofList name)
        let total ← total.addUnits? n fraction unit
        let r := r.dropWhile isUnitChar
        match r with
        | [] => some total
        | c :: _ => if Text.isDigit c || Text.isBlank c then sumFrom? total fuel r else none
      else none

/-- The length that a text writes, if it does: numbers with units, which add up. -/
def parse? (s : String) : Option Duration :=
  if s = "0" then some ⟨0⟩
  else if Text.isBlankText s then none
  else sumFrom? ⟨0⟩ (s.length + 1) s.toList

/-- A number with a unit that takes an s after more than one. -/
def plural (n : Nat) (name : String) : List String :=
  if n = 0 then [] else [toString n ++ name ++ if n > 1 then "s" else ""]

/-- A number with a unit, unless it is zero. -/
def counted (n : Nat) (name : String) : List String :=
  if n = 0 then [] else [toString n ++ name]

/-- A length in the largest units that fit, from years to nanoseconds. -/
def text (d : Duration) : String :=
  if d.nanos = 0 then "0s"
  else
    let years := d.seconds / 31557600
    let inYear := d.seconds % 31557600
    let months := inYear / 2630016
    let inMonth := inYear % 2630016
    let inDay := inMonth % 86400
    " ".intercalate (plural years "year" ++ plural months "month" ++
      plural (inMonth / 86400) "day" ++ counted (inDay / 3600) "h" ++
      counted (inDay / 60 % 60) "m" ++ counted (inDay % 60) "s" ++
      counted (d.subNanos / 1000000) "ms" ++ counted (d.subNanos / 1000 % 1000) "us" ++
      counted (d.subNanos % 1000) "ns")

/-- A whole number and the digits of a fraction of the given width, without zeros at its end. -/
def decimal (whole fraction width : Nat) : String :=
  let ds := Text.dropEnd (· == '0') (Text.padded width fraction).toList
  toString whole ++ if fraction = 0 then "" else "." ++ String.ofList ds

/-- A length in the largest of seconds, milliseconds, microseconds and nanoseconds that fits. -/
def messageText (d : Duration) : String :=
  if d.seconds > 0 then decimal d.seconds d.subNanos 9 ++ "s"
  else if d.nanos ≥ 1000000 then decimal (d.nanos / 1000000) (d.nanos % 1000000) 6 ++ "ms"
  else if d.nanos ≥ 1000 then decimal (d.nanos / 1000) (d.nanos % 1000) 3 ++ "µs"
  else toString d.nanos ++ "ns"

end RecipeFlow.Duration
