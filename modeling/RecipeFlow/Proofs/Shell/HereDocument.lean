import RecipeFlow.Proofs.Shell.Commands

/-! Here-documents of a script: which of its lines are handed to a command as they are, and which of
them a shell goes on to run. -/
namespace RecipeFlow.Shell

/-- What a shell makes of a script with a here-document. -/
structure HereDocument where
  /-- The lines up to the one that opens it. -/
  opening : List (List Char)
  /-- The lines that are handed over as they are. -/
  body : List (List Char)
  /-- The lines behind it. -/
  rest : List (List Char)
  deriving DecidableEq, Repr

variable {mark l : List Char} {ls body rest : List (List Char)}

/-- What the body of a here-document comes to: each line is ended. -/
def HereDocument.text (d : HereDocument) : String :=
  String.join (d.body.map fun l => String.ofList l ++ "\n")

/-- The lines in front of the first that is a mark, and those behind it. -/
def upTo? (mark : List Char) : List (List Char) → Option (List (List Char) × List (List Char))
  | [] => none
  | l :: ls =>
    if l = mark then some ([], ls)
    else (upTo? mark ls).map fun (body, rest) => (l :: body, rest)

/-- Whether a line opens a here-document that nothing is expanded in. -/
def opens (mark l : List Char) : Bool :=
  ("<< '".toList ++ mark ++ ['\'']).isSuffixOf l

/-- The first here-document of a script with a mark: it ends at the first line that is the mark. -/
def hereDocument? (mark : List Char) : List (List Char) → Option HereDocument
  | [] => none
  | l :: ls =>
    if opens mark l then (upTo? mark ls).map fun (body, rest) => ⟨[l], body, rest⟩
    else (hereDocument? mark ls).map fun d => { d with opening := l :: d.opening }

theorem upTo?_of_notMem (h : mark ∉ body) :
    upTo? mark (body ++ mark :: rest) = some (body, rest) := by
  induction body with
  | nil => exact if_pos rfl
  | cons l body ih =>
    rw [List.mem_cons, not_or] at h
    rw [List.cons_append, upTo?, if_neg (Ne.symm h.1), ih h.2]
    rfl

/-- A here-document goes from the first line that opens one to the first that is its mark. -/
theorem hereDocument?_of_opens (hls : ∀ l ∈ ls, opens mark l = false) (hl : opens mark l = true)
    (hbody : mark ∉ body) :
    hereDocument? mark (ls ++ l :: (body ++ mark :: rest)) = some ⟨ls ++ [l], body, rest⟩ := by
  induction ls with
  | nil =>
    rw [List.nil_append, hereDocument?, if_pos hl, upTo?_of_notMem hbody]
    rfl
  | cons l' ls ih =>
    obtain ⟨hl', hls⟩ := List.forall_mem_cons.1 hls
    rw [List.cons_append, hereDocument?, hl', if_neg Bool.false_ne_true, ih hls]
    rfl

theorem opens_makingLine (mark : List Char) (dir : String) :
    opens mark (makingLine dir).toList = false := by
  rw [opens, ← Bool.not_eq_true, List.isSuffixOf_iff_suffix]
  rintro ⟨front, hfront⟩
  have hlast : (makingLine dir).toList.getLast? = some '\'' := by
    rw [← hfront, ← List.append_assoc]
    exact List.getLast?_concat
  rw [makingLine, String.toList_append, List.getLast?_append] at hlast
  cases hlast

theorem opens_writingLine (file : String) :
    opens "EOF".toList (writingLine file).toList = true := by
  rw [opens, List.isSuffixOf_iff_suffix, writingLine, String.toList_append]
  refine ⟨"cat > ".toList ++ file.toList ++ [' '], ?_⟩
  simp

end RecipeFlow.Shell
