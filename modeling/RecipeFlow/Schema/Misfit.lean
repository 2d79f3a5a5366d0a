import RecipeFlow.Number.Shortest
import RecipeFlow.Text.Quoted

/-! Misfits: the ways in which a document does not have the form that is asked for, and their
wording. -/
namespace RecipeFlow

/-- What stands in a document where something else is asked for. -/
inductive Found where
  | bool (b : Bool)
  | int (i : Int)
  /-- A whole number of more than 64 bits, read with or without sign. -/
  | wide (i : Int) (signed : Bool)
  | float (x : Binary64)
  | text (s : String)
  | null
  | sequence
  | map
  | tagged
  deriving Repr

namespace Found

def describe : Found → String
  | bool b => "boolean \x60" ++ (if b then "true" else "false") ++ "\x60"
  | int i => "integer \x60" ++ toString i ++ "\x60"
  | wide i signed => "integer \x60" ++ toString i ++ "\x60 as " ++ if signed then "i128" else "u128"
  | float x => "floating point \x60" ++ x.messageText ++ "\x60"
  | text s => "string " ++ Text.quoted s
  | null => "unit value"
  | sequence => "sequence"
  | map => "map"
  | tagged => "enum"

end Found

/-- One way in which a document does not fit. -/
inductive Misfit where
  /-- The text is no document at all. -/
  | syntaxError
  | missingField (name : String)
  | unknownField (name : String) (known : List String)
  | unknownVariant (name : String) (known : List String)
  | duplicateField (name : String)
  | wrongType (found : Found) (expected : String)
  | wrongValue (found : Found) (expected : String)
  | wrongLength (length : Nat) (expected : String)
  deriving Repr

namespace Misfit

/-- A name between backticks. -/
def ticked (s : String) : String :=
  "\x60" ++ s ++ "\x60"

/-- The names that would do. -/
def alternatives : List String → String
  | [] => ""
  | [a] => "expected " ++ ticked a
  | [a, b] => "expected " ++ ticked a ++ " or " ++ ticked b
  | names => "expected one of " ++ ", ".intercalate (names.map ticked)

/-- The wording of a misfit. Of a text that is no document at all it is not told what is wrong with
it: in the place of the reader's own message stands the constant `syntax`. -/
def text : Misfit → String
  | syntaxError => "syntax"
  | missingField n => "missing field " ++ ticked n
  | unknownField n known => "unknown field " ++ ticked n ++ ", " ++ alternatives known
  | unknownVariant n known => "unknown variant " ++ ticked n ++ ", " ++ alternatives known
  | duplicateField n => "duplicate field " ++ ticked n
  | wrongType f e => "invalid type: " ++ f.describe ++ ", expected " ++ e
  | wrongValue f e => "invalid value: " ++ f.describe ++ ", expected " ++ e
  | wrongLength n e => "invalid length " ++ toString n ++ ", expected " ++ e

end Misfit

end RecipeFlow
