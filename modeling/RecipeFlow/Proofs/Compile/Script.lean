import Mathlib.Data.List.Basic
import RecipeFlow.Compile.Shell
import RecipeFlow.Proofs.Shell.Word

/-! Reading back what a first command's script sets up for each file. -/
namespace RecipeFlow.ShellWorkflow

variable {command staging : String} {i : FetchItem} {files : List FetchItem} {fuel : Nat}

/-- What stands in front of the value of INPUT_FILE. -/
def inputMark : List Char := '\n' :: "export INPUT_FILE=".toList

/-- What stands in front of the value of OUTPUT_FILE below the output directory. -/
def outputMark : List Char := '\n' :: "export OUTPUT_FILE=\"$OUTPUT_DIR\"/".toList

/-- The values of INPUT_FILE and of OUTPUT_FILE, below the output directory, that come before the
next run of a command, and what is behind that. -/
def readRound (command : String) (cs : List Char) : Option ((String × String) × List Char) := do
  let cs ← cs.dropPrefix? inputMark
  let (input, cs) ← Shell.readWord .bare cs
  let cs ← cs.dropPrefix? outputMark
  let (output, cs) ← Shell.readWord .bare cs
  let cs ← cs.dropPrefix? ('\n' :: command.toList)
  return ((String.ofList input, String.ofList output), cs)

/-- The values of all runs of a command, of which there may be so many. -/
def readRounds (command : String) : Nat → List Char → Option (List (String × String))
  | _, [] => some []
  | 0, _ :: _ => none
  | fuel + 1, cs => do
    let (round, cs) ← readRound command cs
    return round :: (← readRounds command fuel cs)

/-- The values that a script sets up for the runs of a command. -/
def readScript (command script : String) : Option (List (String × String)) := do
  let cs ← script.toList.dropPrefix? "set -e\nmkdir -p \"$OUTPUT_DIR\"".toList
  readRounds command cs.length cs

/-- What a script has to set up for an item. -/
def assignment (staging : String) (i : FetchItem) : String × String :=
  (i.inputPath staging, i.filename)

/-- The lines of an item, each behind a line break. -/
def roundChars (staging command : String) (i : FetchItem) : List Char :=
  (fileLines staging command i).flatMap fun l => '\n' :: l.toList

theorem dropPrefix?_append (p cs : List Char) : (p ++ cs).dropPrefix? p = some cs :=
  List.dropPrefix?_append_of_beq cs (beq_self_eq_true p)

theorem ends_newline (cs : List Char) : Shell.Ends ('\n' :: cs) := by
  intro c hc
  cases hc
  decide

theorem roundChars_append (cs : List Char) : roundChars staging command i ++ cs =
    inputMark ++ ((Shell.quote (i.inputPath staging)).toList ++ (outputMark ++
      ((Shell.quote i.filename).toList ++ ('\n' :: command.toList ++ cs)))) := by
  simp only [roundChars, fileLines, inputMark, outputMark, List.flatMap_cons, List.flatMap_nil,
    String.toList_append, List.cons_append, List.append_assoc, List.append_nil]

/-- The lines of an item set up what they have to. -/
theorem readRound_roundChars (staging command : String) (i : FetchItem) (cs : List Char) :
    readRound command (roundChars staging command i ++ cs) = some (assignment staging i, cs) := by
  have hinput : ∀ cs, Shell.readWord .bare ((Shell.quote (i.inputPath staging)).toList ++
      (outputMark ++ cs)) = some ((i.inputPath staging).toList, outputMark ++ cs) :=
    fun cs => Shell.readWord_quote _ (ends_newline _)
  have houtput : ∀ cs, Shell.readWord .bare ((Shell.quote i.filename).toList ++
      ('\n' :: command.toList ++ cs)) = some (i.filename.toList, '\n' :: command.toList ++ cs) :=
    fun cs => Shell.readWord_quote _ (ends_newline _)
  simp only [readRound, roundChars_append, dropPrefix?_append, hinput, houtput,
    Option.bind_eq_bind, Option.bind_some, Option.pure_def, String.ofList_toList, assignment]

theorem readRounds_flatMap (h : files.length ≤ fuel) :
    readRounds command fuel (files.flatMap (roundChars staging command)) =
      some (files.map (assignment staging)) := by
  induction files generalizing fuel with
  | nil => cases fuel <;> rfl
  | cons i files ih =>
    cases fuel with
    | zero => cases h
    | succ fuel =>
      have hrest := ih (Nat.le_of_succ_le_succ h)
      have hround := readRound_roundChars staging command i
        (files.flatMap (roundChars staging command))
      obtain ⟨cs, hcs⟩ : ∃ cs, roundChars staging command i ++
          files.flatMap (roundChars staging command) = '\n' :: cs := ⟨_, rfl⟩
      rw [List.flatMap_cons, hcs, readRounds, ← hcs, hround]
      · simp only [Option.bind_eq_bind, Option.bind_some, hrest, Option.pure_def, List.map_cons]
      · nofun

theorem length_le_flatMap : files.length ≤ (files.flatMap (roundChars staging command)).length := by
  induction files with
  | nil => exact Nat.zero_le _
  | cons i files ih =>
    have hone : 1 ≤ (roundChars staging command i).length := Nat.le_add_left 1 _
    rw [List.flatMap_cons, List.length_append, List.length_cons]
    omega

theorem toList_intercalate_cons (l : String) (ls : List String) :
    ("\n".intercalate (l :: ls)).toList = l.toList ++ ls.flatMap fun m => '\n' :: m.toList := by
  induction ls generalizing l with
  | nil => simp
  | cons m ls ih =>
    rw [String.intercalate_cons_cons, String.toList_append, String.toList_append, ih]
    simp

/-- The script of a first command's task sets up each file of the partition, in order. -/
theorem readScript_partitionScript (id : String) (p : Nat) :
    readScript command (partitionScript ⟨id, 0, p⟩ files staging command) =
      some (files.map (assignment staging)) := by
  have hchars : (partitionScript ⟨id, 0, p⟩ files staging command).toList =
      "set -e\nmkdir -p \"$OUTPUT_DIR\"".toList ++ files.flatMap (roundChars staging command) := by
    rw [partitionScript, partitionLines, List.cons_append, toList_intercalate_cons]
    simp only [List.flatMap_append, List.flatMap_assoc]
    rfl
  rw [readScript, hchars, dropPrefix?_append, Option.bind_eq_bind, Option.bind_some]
  exact readRounds_flatMap length_le_flatMap

end RecipeFlow.ShellWorkflow
