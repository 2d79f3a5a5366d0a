/-! Binary floating-point numbers of 64 bits, computed exactly in natural numbers. -/
namespace RecipeFlow

/-- A finite number is its sign, a mantissa below 2^53 and a binary exponent of at least -1074. -/
inductive Binary64 where
  | finite (negative : Bool) (mantissa : Nat) (exponent : Int)
  | infinite (negative : Bool)
  | nan
  deriving DecidableEq, Repr, Inhabited

namespace Binary64

/-- The quotient rounded to the nearest whole number, a half going to the even neighbour. -/
def roundDiv (num den : Nat) : Nat :=
  let q := num / den
  let r := num % den
  if 2 * r < den then q
  else if den < 2 * r then q + 1
  else if q % 2 == 0 then q else q + 1

/-- The number of binary digits. -/
def bitLength (n : Nat) : Nat :=
  if n == 0 then 0 else n.log2 + 1

/-- The binary exponent at which a positive ratio keeps 53 digits, or the least one there is. -/
def scaleOf (num den : Nat) : Int :=
  let guess : Int := (bitLength num : Int) - (bitLength den : Int) - 53
  let fits (e : Int) : Bool :=
    if e < 0 then num * Nat.pow 2 (-e).toNat / den < Nat.pow 2 53
    else num / (den * Nat.pow 2 e.toNat) < Nat.pow 2 53
  let e := if fits guess then guess else guess + 1
  if e < -1074 then -1074 else e

/-- The nearest number to a ratio of naturals, infinite when it is out of range. -/
def ofRatio (negative : Bool) (num den : Nat) : Binary64 :=
  if num == 0 then .finite negative 0 0
  else
    let e := scaleOf num den
    let m :=
      if e < 0 then roundDiv (num * Nat.pow 2 (-e).toNat) den
      else roundDiv num (den * Nat.pow 2 e.toNat)
    let (m, e) := if m == Nat.pow 2 53 then (Nat.pow 2 52, e + 1) else (m, e)
    if e > 971 then .infinite negative else .finite negative m e

/-- The nearest number to digits times a power of ten. -/
def ofDecimal (negative : Bool) (digits : Nat) (exponent : Int) : Binary64 :=
  if digits == 0 then .finite negative 0 0
  else if exponent > 400 then .infinite negative
  else if exponent + ((toString digits).length : Int) < -400 then .finite negative 0 0
  else if exponent < 0 then ofRatio negative digits (Nat.pow 10 (-exponent).toNat)
  else ofRatio negative (digits * Nat.pow 10 exponent.toNat) 1

/-- Numerator and denominator of a mantissa and exponent. -/
def ratio (m : Nat) (e : Int) : Nat × Nat :=
  if e < 0 then (m, Nat.pow 2 (-e).toNat) else (m * Nat.pow 2 e.toNat, 1)

/-- The product, rounded. -/
def mul : Binary64 → Binary64 → Binary64
  | .finite s m e, .finite t n f =>
    let (a, b) := ratio m e
    let (c, d) := ratio n f
    ofRatio (s != t) (a * c) (b * d)
  | x, _ => x

/-- The quotient by a number other than zero, rounded. -/
def div : Binary64 → Binary64 → Binary64
  | .finite s m e, .finite t n f =>
    let (a, b) := ratio m e
    let (c, d) := ratio n f
    ofRatio (s != t) (a * d) (b * c)
  | x, _ => x

def isFinite : Binary64 → Bool
  | .finite .. => true
  | _ => false

def isZero : Binary64 → Bool
  | .finite _ 0 _ => true
  | _ => false

end Binary64

end RecipeFlow
