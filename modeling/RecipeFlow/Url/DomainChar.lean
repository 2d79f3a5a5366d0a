import RecipeFlow.Text.Blank

/-! The characters of domain names: which ones stand for others, count for nothing or may not occur.
The table covers the scripts that have capital letters and the forms of ASCII that are as wide as
Chinese characters. -/
namespace RecipeFlow.Domain

/-- Characters of which each, or every second one, stands for the one at a fixed distance. -/
structure CharRun where
  first : Nat
  last : Nat
  step : Nat
  shift : Int

def CharRun.has (r : CharRun) (n : Nat) : Bool :=
  r.first ≤ n && n ≤ r.last && (n - r.first) % r.step == 0

/-- Capital letters and the small letters that they stand for. -/
def capitals : List CharRun :=
  [⟨0x41, 0x5A, 1, 32⟩, ⟨0xC0, 0xD6, 1, 32⟩, ⟨0xD8, 0xDE, 1, 32⟩, ⟨0x100, 0x12E, 2, 1⟩,
    ⟨0x134, 0x136, 2, 1⟩, ⟨0x139, 0x13D, 2, 1⟩, ⟨0x141, 0x147, 2, 1⟩, ⟨0x14A, 0x176, 2, 1⟩,
    ⟨0x178, 0x178, 1, -121⟩, ⟨0x179, 0x17D, 2, 1⟩, ⟨0x1CD, 0x1DB, 2, 1⟩, ⟨0x1DE, 0x1EE, 2, 1⟩,
    ⟨0x1F8, 0x21E, 2, 1⟩, ⟨0x222, 0x232, 2, 1⟩, ⟨0x246, 0x24E, 2, 1⟩, ⟨0x386, 0x386, 1, 38⟩,
    ⟨0x388, 0x38A, 1, 37⟩, ⟨0x38C, 0x38C, 1, 64⟩, ⟨0x38E, 0x38F, 1, 63⟩, ⟨0x391, 0x3A1, 1, 32⟩,
    ⟨0x3A3, 0x3AB, 1, 32⟩, ⟨0x3D8, 0x3EE, 2, 1⟩, ⟨0x400, 0x40F, 1, 80⟩, ⟨0x410, 0x42F, 1, 32⟩,
    ⟨0x460, 0x480, 2, 1⟩, ⟨0x48A, 0x4BE, 2, 1⟩, ⟨0x4C1, 0x4CD, 2, 1⟩, ⟨0x4D0, 0x52E, 2, 1⟩,
    ⟨0x531, 0x556, 1, 48⟩, ⟨0x1C90, 0x1CBA, 1, -3008⟩, ⟨0x1E00, 0x1E94, 2, 1⟩,
    ⟨0x1EA0, 0x1EFE, 2, 1⟩, ⟨0x24B6, 0x24CF, 1, -9301⟩, ⟨0x24D0, 0x24E9, 1, -9327⟩,
    ⟨0x2C00, 0x2C2F, 1, 48⟩, ⟨0x2C80, 0x2CE2, 2, 1⟩, ⟨0xA640, 0xA66C, 2, 1⟩,
    ⟨0xFF01, 0xFF20, 1, -65248⟩, ⟨0xFF21, 0xFF3A, 1, -65216⟩, ⟨0xFF3B, 0xFF5E, 1, -65248⟩,
    ⟨0x10400, 0x10427, 1, 40⟩]

/-- The full stops of other scripts. -/
def isStop (c : Char) : Bool :=
  ['\u3002', '\uFF0E', '\uFF61'].contains c

/-- Characters that are left out: marks for breaking words and for choosing a shape. -/
def isIgnored (c : Char) : Bool :=
  let n := c.toNat
  n == 0xAD || n == 0x34F || (0x180B ≤ n && n ≤ 0x180F) || n == 0x200B || n == 0x2060 ||
    n == 0x2064 || (0xFE00 ≤ n && n ≤ 0xFE0F) || n == 0xFEFF || (0xE0100 ≤ n && n ≤ 0xE01EF)

/-- Characters that no domain holds: controls, spaces, and those without a meaning of their own. -/
def isExcluded (c : Char) : Bool :=
  let n := c.toNat
  (0x80 ≤ n && n ≤ 0xA0) || n == 0x61C || n == 0x1680 || (0x2000 ≤ n && n ≤ 0x200A) ||
    n == 0x200E || n == 0x200F || (0x2028 ≤ n && n ≤ 0x202F) || n == 0x205F ||
    (0x2061 ≤ n && n ≤ 0x206F) || n == 0x3000 || (0xE000 ≤ n && n ≤ 0xF8FF) ||
    (0xFDD0 ≤ n && n ≤ 0xFDEF) || (0xFFEF ≤ n && n ≤ 0xFFFF) || n % 0x10000 ≥ 0xFFFE ||
    0x323B0 ≤ n

/-- Marks that are put onto the character before them. -/
def isMark (c : Char) : Bool :=
  let n := c.toNat
  (0x300 ≤ n && n ≤ 0x36F) || (0x483 ≤ n && n ≤ 0x489) || (0x1AB0 ≤ n && n ≤ 0x1ACE) ||
    (0x1DC0 ≤ n && n ≤ 0x1DFF) || (0x20D0 ≤ n && n ≤ 0x20F0) || (0x3099 ≤ n && n ≤ 0x309A) ||
    (0xFE20 ≤ n && n ≤ 0xFE2F)

/-- What a character stands for; nothing if it may not occur. -/
def fold? (c : Char) : Option (List Char) :=
  if isIgnored c then some []
  else if isStop c then some ['.']
  else if isExcluded c then none
  else match capitals.find? (·.has c.toNat) with
    | some r => some [Char.ofNat (Int.toNat (c.toNat + r.shift))]
    | none => some [c]

/-- What the characters of a domain stand for. -/
def foldAll? (cs : List Char) : Option (List Char) :=
  (cs.mapM fold?).map List.flatten

end RecipeFlow.Domain
