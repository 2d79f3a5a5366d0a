import RecipeFlow.Text.Blank

/-! Patterns for file names, with wildcards, and the names that they match in any case. -/
namespace RecipeFlow.Glob

/-- A character or an inclusive range between square brackets. -/
inductive CharSet where
  | one (c : Char)
  | range (first last : Char)
  deriving DecidableEq, Repr

/-- One part of a pattern. -/
inductive Part where
  | char (c : Char)
  /-- A question mark: one character. -/
  | any
  /-- One character that is in the sets, or is in none of them. -/
  | oneOf (negated : Bool) (sets : List CharSet)
  /-- A star: any characters. -/
  | many
  /-- Two stars: whole parts of a path. -/
  | deep
  deriving DecidableEq, Repr

abbrev Pattern := List Part

/-! Matching. -/

/-- Whether two characters are the same but for the case of ASCII letters. -/
def sameChar (a b : Char) : Bool :=
  Text.lowerAscii a == Text.lowerAscii b

/-- Whether a range has ASCII letters at both ends. -/
def isLetterRange (first last : Char) : Bool :=
  Text.isAsciiLetter first && Text.isAsciiLetter last

def CharSet.has (c : Char) : CharSet → Bool
  | one d => sameChar c d
  | range first last =>
    (first ≤ c && c ≤ last) ||
      (isLetterRange first last && c.toNat < 128 &&
        Text.lowerAscii first ≤ Text.lowerAscii c && Text.lowerAscii c ≤ Text.lowerAscii last)

/-- Whether a part other than stars takes a character. -/
def Part.takes (c : Char) : Part → Bool
  | char d => sameChar c d
  | any => true
  | oneOf negated sets => sets.any (·.has c) != negated
  | many | deep => false

/-- Whether the list starts with true. -/
def holds (bs : List Bool) : Bool :=
  bs.head? == some true

/-- Whether something holds here or further on. -/
def anyLater : List Bool → List Bool
  | [] => []
  | b :: r =>
    let later := anyLater r
    (b || holds later) :: later

/-- Whether something holds behind a slash that comes here or later, or at the end. -/
def anyAfterSlash : List Char → List Bool → List Bool
  | c :: cs, _ :: bs =>
    let later := anyAfterSlash cs bs
    ((c == '/' && holds bs) || holds later) :: later
  | _, bs => bs

/-- Whether a pattern matches, for every end of a text, from the whole text to nothing. -/
def matchEnds : Pattern → List Char → List Bool
  | [], cs => cs.map (fun _ => false) ++ [true]
  | .many :: ps, cs => anyLater (matchEnds ps cs)
  | .deep :: ps, cs =>
    let bs := matchEnds ps cs
    List.zipWith or bs (anyAfterSlash cs bs)
  | p :: ps, cs => List.zipWith (fun c b => p.takes c && b) cs (matchEnds ps cs).tail ++ [false]

/-- Whether a pattern matches a text from its start to its end. -/
def isMatch (p : Pattern) (cs : List Char) : Bool :=
  holds (matchEnds p cs)

/-! Reading. -/

/-- What is wrong with a pattern. -/
inductive Flaw where
  | stars
  | deepPart
  | badSet
  deriving DecidableEq, Repr

def Flaw.text : Flaw → String
  | stars => "wildcards are either regular \x60*\x60 or recursive \x60**\x60"
  | deepPart => "recursive wildcards must form a single path component"
  | badSet => "invalid range pattern"

/-- What is wrong with a pattern and how many characters stand before it. -/
structure PatternFault where
  position : Nat
  flaw : Flaw
  deriving DecidableEq, Repr

def PatternFault.text (f : PatternFault) : String :=
  "Pattern syntax error near position " ++ toString f.position ++ ": " ++ f.flaw.text

/-- The sets between square brackets. -/
def setsOf : List Char → List CharSet
  | a :: '-' :: b :: r => .range a b :: setsOf r
  | a :: r => .one a :: setsOf r
  | [] => []

/-- What stands before a closing bracket, and what stands after it. The first character does not
close. -/
def splitSet : List Char → Option (List Char × List Char)
  | [] => none
  | c :: r =>
    if r.contains ']' then
      some (c :: r.takeWhile (· != ']'), (r.dropWhile (· != ']')).drop 1)
    else none

/-- The part that starts with an opening bracket, how many characters follow the bracket in it, and
what follows it. -/
def bracketPart? (cs : List Char) : Option (Part × Nat × List Char) :=
  let (negated, body) := match cs with
    | '!' :: r => (true, r)
    | r => (false, r)
  (splitSet body).map fun (content, r) =>
    (.oneOf negated (setsOf content), cs.length - r.length, r)

/-- Reads a pattern from a position on; `before` is the character before it. -/
def parseFrom (position : Nat) (before : Option Char) : Nat → List Char → Except PatternFault Pattern
  | 0, _ | _, [] => .ok []
  | fuel + 1, '*' :: r =>
    let count := 1 + (r.takeWhile (· == '*')).length
    let rest := r.dropWhile (· == '*')
    if count > 2 then .error ⟨position + 2, .stars⟩
    else if count = 1 then do
      return .many :: (← parseFrom (position + 1) (some '*') fuel rest)
    else if !before.all (· == '/') then .error ⟨position - 1, .deepPart⟩
    else match rest with
      | [] => .ok [.deep]
      | c :: rest =>
        if c = '/' then do
          return .deep :: (← parseFrom (position + 3) (some '/') fuel rest)
        else .error ⟨position + 2, .deepPart⟩
  | fuel + 1, c :: r =>
    if c = '[' then
      match bracketPart? r with
      | some (p, used, r) => do
        return p :: (← parseFrom (position + used + 1) (some ']') fuel r)
      | none => .error ⟨position, .badSet⟩
    else do
      return (if c = '?' then .any else .char c) :: (← parseFrom (position + 1) (some c) fuel r)

/-- The pattern that a text writes. -/
def parse (s : String) : Except PatternFault Pattern :=
  parseFrom 0 none s.toList.length s.toList

end RecipeFlow.Glob
