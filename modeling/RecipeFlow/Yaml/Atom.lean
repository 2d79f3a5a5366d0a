import RecipeFlow.Schema.Misfit
import RecipeFlow.Text.Blank
import RecipeFlow.Yaml.Node

/-! What the text of a scalar says: nothing, a truth value, a number or a text. -/
namespace RecipeFlow.Yaml

inductive Atom where
  | null
  | bool (b : Bool)
  /-- A whole number without minus sign, of 64 bits. -/
  | natural (n : Nat)
  /-- A whole number with a minus sign, of 64 bits. -/
  | signed (i : Int)
  /-- A whole number of 128 bits. -/
  | wide (i : Int) (signed : Bool)
  | float (x : Binary64)
  | text (s : String)
  deriving Repr, Inhabited

def Atom.found : Atom → Found
  | null => .null
  | bool b => .bool b
  | natural n => .int n
  | signed i => .int i
  | wide i s => .wide i s
  | float x => .float x
  | text s => .text s

/-- Whether a text says that there is nothing. -/
def isNullText (s : String) : Bool :=
  s = "null" || s = "Null" || s = "NULL" || s = "~"

def truth? (s : String) : Option Bool :=
  if s = "true" || s = "True" || s = "TRUE" then some true
  else if s = "false" || s = "False" || s = "FALSE" then some false
  else none

/-- A number in one of the bases that a mark stands for. -/
def based? : List Char → Option Nat
  | '0' :: 'x' :: r => Text.digits? 16 r
  | '0' :: 'o' :: r => Text.digits? 8 r
  | '0' :: 'b' :: r => Text.digits? 2 r
  | _ => none

/-- Zeros in front of digits make no number. -/
def isPadded : List Char → Bool
  | '0' :: d :: r => (d :: r).all Text.isDigit
  | _ => false

/-- The amount of a whole number, whose sign has been read. -/
def magnitude? (cs : List Char) : Option Nat :=
  (based? cs).or (if isPadded cs then none else Text.digits? 10 cs)

/-- A whole number; one without sign has 128 bits at most, and so has one with it. -/
def whole? (cs : List Char) : Option Atom :=
  match cs with
  | '-' :: r => do
    let i : Int := -(← magnitude? r : Nat)
    if -(Nat.pow 2 63) ≤ i then some (.signed i)
    else if -(Nat.pow 2 127) ≤ i then some (.wide i true)
    else none
  | _ => do
    let n ← magnitude? (if cs.head? = some '+' then cs.drop 1 else cs)
    if n < Nat.pow 2 64 then some (.natural n)
    else if n < Nat.pow 2 128 then some (.wide n false)
    else none

/-- The power of ten at the end of a number. -/
def power? : List Char → Option Int
  | [] => some 0
  | c :: r =>
    if c == 'e' || c == 'E' then
      match r with
      | '-' :: r => (Text.digits? 10 r).map fun n => -(n : Int)
      | '+' :: r => (Text.digits? 10 r).map Int.ofNat
      | r => (Text.digits? 10 r).map Int.ofNat
    else none

/-- A decimal number without sign, with digits on at least one side of the point. -/
def decimal? (negative : Bool) (cs : List Char) : Option Binary64 :=
  let whole := cs.takeWhile Text.isDigit
  let (fraction, r) := match cs.drop whole.length with
    | '.' :: r => (r.takeWhile Text.isDigit, r.dropWhile Text.isDigit)
    | r => ([], r)
  do
    let n ← Text.digits? 10 (whole ++ fraction)
    let e ← power? r
    let x := Binary64.ofDecimal negative n (e - (fraction.length : Int))
    if x.isFinite then some x else none

/-- A number with a point or a power of ten, or one that is none. -/
def float? (s : String) : Option Binary64 :=
  let isInfinite (cs : List Char) := [".inf", ".Inf", ".INF"].contains (String.ofList cs)
  if s = ".nan" || s = ".NaN" || s = ".NAN" then some .nan
  else match s.toList with
    | '-' :: r => if isInfinite r then some (.infinite true) else decimal? true r
    | '+' :: r => if isInfinite r then some (.infinite false) else decimal? false r
    | cs => if isInfinite cs then some (.infinite false) else decimal? false cs

/-- Whether a text is digits behind zeros, with or without a sign. -/
def isPaddedText (cs : List Char) : Bool :=
  match cs with
  | '-' :: r | '+' :: r => isPadded r
  | _ => isPadded cs

/-- The meaning of a text without quotes. -/
def plainAtom (s : String) : Atom :=
  if s = "" || isNullText s then .null
  else match truth? s with
    | some b => .bool b
    | none =>
      match whole? s.toList with
      | some a => a
      | none =>
        if isPaddedText s.toList then .text s
        else match float? s with
          | some x => .float x
          | none => .text s

/-- The tag of a type that every document knows. -/
def standardTag (name : String) : String :=
  "tag:yaml.org,2002:" ++ name

/-- Whether a tag is one of the document's own. -/
def isLocalTag (tag : String) : Bool :=
  tag.toList.head? = some '!'

namespace Scalar

/-- What a scalar says; a standard tag asks for one kind of meaning. -/
def atom (s : Scalar) : Except Misfit Atom :=
  let asked (a : Option Atom) (expected : String) : Except Misfit Atom :=
    match a with
    | some a => .ok a
    | none => .error (.wrongValue (.text s.text) expected)
  match s.tag with
  | none => .ok (if s.plain then plainAtom s.text else .text s.text)
  | some tag =>
    if tag = standardTag "bool" then asked ((truth? s.text).map .bool) "a boolean"
    else if tag = standardTag "int" then asked (whole? s.text.toList) "an integer"
    else if tag = standardTag "float" then asked ((float? s.text).map .float) "a float"
    else if tag = standardTag "null" then
      asked (if isNullText s.text then some .null else none) "null"
    else if isLocalTag tag && s.plain then .ok (plainAtom s.text)
    else .ok (.text s.text)

end Scalar

end RecipeFlow.Yaml
