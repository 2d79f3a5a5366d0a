import RecipeFlow.Fault.Basic

/-! Splitting files into partitions: contiguous groups in their order, the last of which holds the
remainder. -/
namespace RecipeFlow

/-- The files that one task of a processing stage works on. -/
structure Partition where
  /-- Position among the partitions of the stage. -/
  number : Nat
  files : List String
  /-- Name of the processing stage. -/
  function : String
  /-- Counts by name. -/
  counts : List (String × Nat)
  deriving DecidableEq, Repr

namespace Partition

/-- A size below one counts as one. -/
def clamp (size : Int) : Nat :=
  (max size 1).toNat

/-- Groups of `size` neighbours, the last of which may be shorter. -/
def chunks {α : Type} (size : Nat) : Nat → List α → List (List α)
  | 0, _ | _, [] => []
  | fuel + 1, x :: xs => (x :: xs).take size :: chunks size fuel ((x :: xs).drop size)

/-- The partition at a position. -/
def ofChunk (function : String) (number : Nat) (files : List String) : Partition :=
  ⟨number, files, function, [("num_files", files.length)]⟩

/-- The partitions of a file list into groups of a size; an empty list has none. -/
def plan (files : List String) (size : Int) (function : String) :
    Except Fault (List Partition) :=
  if files.isEmpty then
    .error (.invalid Code.emptyPartitionInput
      ("No files provided for execution function '" ++ function ++ "'") none)
  else
    .ok ((chunks (clamp size) files.length files).mapIdx (ofChunk function))

/-- The number of partitions that so many files make. -/
def count (files : Nat) (size : Int) : Nat :=
  (files + clamp size - 1) / clamp size

end Partition

end RecipeFlow
