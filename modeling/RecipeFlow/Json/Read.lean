import RecipeFlow.Json.Basic
import RecipeFlow.Text.Blank

/-! Reading JSON documents. Whole numbers that do not fit 64 bits become fractions, and values may
nest 127 deep. -/
namespace RecipeFlow.Json

/-- The characters that may stand between the parts of a document. -/
def isSpace (c : Char) : Bool :=
  c == ' ' || c == '\n' || c == '\t' || c == '\r'

/-- The value of four hexadecimal digits and what follows them. -/
def hexUnit? : List Char → Option (Nat × List Char)
  | a :: b :: c :: d :: r => (Text.digits? 16 [a, b, c, d]).map (·, r)
  | _ => none

/-- The character behind an escaped code unit: a high surrogate needs its low one. -/
def escapedUnit? (cs : List Char) : Option (Char × List Char) :=
  match hexUnit? cs with
  | none => none
  | some (n, r) =>
    if 0xD800 ≤ n && n < 0xDC00 then
      match r with
      | '\\' :: 'u' :: r' =>
        match hexUnit? r' with
        | some (m, r'') =>
          if 0xDC00 ≤ m && m < 0xE000 then
            some (Char.ofNat (0x10000 + (n - 0xD800) * 0x400 + (m - 0xDC00)), r'')
          else none
        | none => none
      | _ => none
    else if 0xDC00 ≤ n && n < 0xE000 then none
    else some (Char.ofNat n, r)

/-- The character behind a backslash. -/
def escaped? : List Char → Option (Char × List Char)
  | '"' :: r => some ('"', r)
  | '\\' :: r => some ('\\', r)
  | '/' :: r => some ('/', r)
  | 'b' :: r => some ('\x08', r)
  | 'f' :: r => some ('\x0c', r)
  | 'n' :: r => some ('\n', r)
  | 'r' :: r => some ('\r', r)
  | 't' :: r => some ('\t', r)
  | 'u' :: r => escapedUnit? r
  | _ => none

/-- The rest of a string after its opening quote. Control characters must be escaped. -/
def stringFrom? (acc : List Char) : Nat → List Char → Option (String × List Char)
  | 0, _ | _, [] => none
  | fuel + 1, c :: r =>
    if c == '"' then some (String.ofList acc.reverse, r)
    else if c == '\\' then
      match escaped? r with
      | some (c', r') => stringFrom? (c' :: acc) fuel r'
      | none => none
    else if c.toNat < 0x20 then none
    else stringFrom? (c :: acc) fuel r

/-- The rest of a string after its opening quote. -/
def string? (cs : List Char) : Option (String × List Char) :=
  stringFrom? [] (cs.length + 1) cs

/-- The greatest whole number of 64 bits. -/
def maxUnsigned : Nat := Nat.pow 2 64 - 1

/-- Takes digits into a significand of 64 bits: digits beyond it only move the exponent, and after
the point they are dropped. -/
def significand (afterPoint : Bool) : Nat → Int → List Char → Nat × Int
  | n, e, [] => (n, e)
  | n, e, c :: r =>
    let n' := n * 10 + (c.toNat - 48)
    if n' ≤ maxUnsigned then significand afterPoint n' (if afterPoint then e - 1 else e) r
    else (n, if afterPoint then e else e + ((c :: r).length : Int))

/-- Ten to a power as a fraction of 64 bits. -/
def powerOfTen (k : Nat) : Binary64 :=
  .ofDecimal false 1 k

/-- Scales a significand by a power of ten, rounding at each step of at most 308 powers; `none`
when the result is out of range. -/
def scaled? : Nat → Binary64 → Int → Option Binary64
  | 0, _, _ => none
  | fuel + 1, x, e =>
    if e.natAbs ≤ 308 then
      if e ≥ 0 then
        let y := x.mul (powerOfTen e.toNat)
        if y.isFinite then some y else none
      else some (x.div (powerOfTen e.natAbs))
    else if x.isZero then some x
    else if e ≥ 0 then none
    else scaled? fuel (x.div (powerOfTen 308)) (e + 308)

/-- Turns the sign of a fraction. -/
def signed (negative : Bool) : Binary64 → Binary64
  | .finite _ m e => .finite negative m e
  | x => x

/-- The fraction with the given sign, digits before and after the point, and exponent. -/
def fraction? (negative : Bool) (whole frac : List Char) (exponent : Int) : Option Json :=
  let (n, e) := significand false 0 0 whole
  let (n, e) := significand true n e frac
  let e := e + exponent
  (scaled? (e.natAbs / 308 + 2) (.ofRatio false n 1) e).map fun x => .float (signed negative x)

/-- A number without point and exponent. -/
def whole? (negative : Bool) (digits : List Char) : Option Json :=
  match Text.digits? 10 digits with
  | none => none
  | some n =>
    if negative then
      if n == 0 then some (.float (.finite true 0 0))
      else if n ≤ Nat.pow 2 63 then some (.int (-(n : Int)))
      else fraction? true digits [] 0
    else if n ≤ maxUnsigned then some (.int n)
    else fraction? false digits [] 0

/-- The exponent after its mark: a sign, if any, and at least one digit. -/
def exponent? (cs : List Char) : Option (Int × List Char) :=
  let (minus, cs) := match cs with
    | '+' :: r => (false, r)
    | '-' :: r => (true, r)
    | _ => (false, cs)
  let ds := cs.takeWhile Text.isDigit
  (Text.digits? 10 ds).map fun n =>
    (if minus then -(n : Int) else n, cs.dropWhile Text.isDigit)

/-- A number, whose sign has been taken. -/
def number? (negative : Bool) (cs : List Char) : Option (Json × List Char) :=
  let ds := cs.takeWhile Text.isDigit
  let r := cs.dropWhile Text.isDigit
  if ds.isEmpty || (ds.head? == some '0' && ds.length > 1) then none
  else
    let (dot, frac, r) := match r with
      | '.' :: r' => (true, r'.takeWhile Text.isDigit, r'.dropWhile Text.isDigit)
      | _ => (false, [], r)
    if dot && frac.isEmpty then none
    else match r with
      | c :: r' =>
        if c == 'e' || c == 'E' then
          match exponent? r' with
          | some (x, r'') => (fraction? negative ds frac x).map (·, r'')
          | none => none
        else if dot then (fraction? negative ds frac 0).map (·, r)
        else (whole? negative ds).map (·, r)
      | [] =>
        if dot then (fraction? negative ds frac 0).map (·, r)
        else (whole? negative ds).map (·, r)

/-- Takes a word off the front of a text. -/
def word? (w : List Char) (v : Json) (cs : List Char) : Option (Json × List Char) :=
  if w.isPrefixOf cs then some (v, cs.drop w.length) else none

mutual

/-- A value and what follows it. `depth` counts the levels that may still be opened. -/
def value? : Nat → Nat → List Char → Option (Json × List Char)
  | 0, _, _ => none
  | fuel + 1, depth, cs =>
    match cs.dropWhile isSpace with
    | [] => none
    | c :: r =>
      if c == '"' then (string? r).map fun (s, r') => (.str s, r')
      else if c == '[' then
        if depth ≤ 1 then none
        else match r.dropWhile isSpace with
          | ']' :: r' => some (.arr [], r')
          | r' => items? fuel (depth - 1) [] r'
      else if c == '\x7b' then
        if depth ≤ 1 then none
        else match r.dropWhile isSpace with
          | '\x7d' :: r' => some (.obj [], r')
          | r' => members? fuel (depth - 1) [] r'
      else if c == '-' then number? true r
      else if Text.isDigit c then number? false (c :: r)
      else if c == 't' then word? "rue".toList (.bool true) r
      else if c == 'f' then word? "alse".toList (.bool false) r
      else if c == 'n' then word? "ull".toList .null r
      else none

/-- The items of an array from one on, the earlier ones held in reverse. -/
def items? : Nat → Nat → List Json → List Char → Option (Json × List Char)
  | 0, _, _, _ => none
  | fuel + 1, depth, acc, cs =>
    match value? fuel depth cs with
    | none => none
    | some (v, r) =>
      match r.dropWhile isSpace with
      | ',' :: r' => items? fuel depth (v :: acc) r'
      | ']' :: r' => some (.arr (v :: acc).reverse, r')
      | _ => none

/-- The members of an object from one on, the earlier ones held in reverse. -/
def members? : Nat → Nat → List (String × Json) → List Char → Option (Json × List Char)
  | 0, _, _, _ => none
  | fuel + 1, depth, acc, cs =>
    match cs.dropWhile isSpace with
    | '"' :: r =>
      match string? r with
      | none => none
      | some (k, r') =>
        match r'.dropWhile isSpace with
        | ':' :: r'' =>
          match value? fuel depth r'' with
          | none => none
          | some (v, q) =>
            match q.dropWhile isSpace with
            | ',' :: q' => members? fuel depth ((k, v) :: acc) q'
            | '\x7d' :: q' => some (.mk ((k, v) :: acc).reverse, q')
            | _ => none
        | _ => none
    | _ => none

end

/-- The value of a document that holds nothing else. -/
def parseChars? (cs : List Char) : Option Json :=
  match value? (2 * cs.length + 2) 128 cs with
  | some (v, r) => if r.all isSpace then some v else none
  | none => none

/-- The value of a document, `none` when its text is no JSON. -/
def parse? (s : String) : Option Json :=
  parseChars? s.toList

end RecipeFlow.Json
