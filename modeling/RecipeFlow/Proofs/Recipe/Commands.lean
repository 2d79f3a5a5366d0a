import RecipeFlow.Proofs.Compile.Layout
import RecipeFlow.Proofs.Recipe.References
import RecipeFlow.Proofs.Text.Lines

/-! The commands of a shell file: which of its lines they are, and which of them a shell runs. -/
namespace RecipeFlow

open Text

/-- What ends a line. -/
inductive LineEnd where
  | feed
  | returnFeed
  deriving DecidableEq

def LineEnd.text : LineEnd → String
  | feed => "\n"
  | returnFeed => "\r\n"

/-- A line of a shell file: a command, or something that is passed over. -/
inductive ShellLine where
  | command (text : String) (unbroken : '\n' ∉ text.toList)
      (whole : text.toList.getLast? ≠ some '\r') (filled : isBlankText text = false)
      (unmarked : text.toList.head? ≠ some '#')
  | passed (text : String) (unbroken : '\n' ∉ text.toList)
      (idle : isBlankText text = true ∨ text.toList.head? = some '#')

namespace ShellLine

def text : ShellLine → String
  | command t .. | passed t .. => t

def command? : ShellLine → Option String
  | command t .. => some t
  | passed .. => none

/-- The text of lines with their ends, behind which a last line may lack its own. -/
def layOut (rows : List (ShellLine × LineEnd)) (last : Option ShellLine) : String :=
  String.join (rows.map fun row => row.1.text ++ row.2.text) ++ (last.map text).getD ""

end ShellLine

namespace Recipe

/-- A comment of a shell: behind blanks, if there are any, it starts with a number sign. -/
def IsComment (line : List Char) : Prop :=
  (line.dropWhile isBlank).head? = some '#'

/-- A line that has a shell run something. -/
def IsRun (line : List Char) : Prop :=
  line.all isBlank = false ∧ ¬ IsComment line

/-- A comment that has blanks in front of it. -/
def IsIndented (line : List Char) : Prop :=
  IsComment line ∧ line.head? ≠ some '#'

/-- A shell file in which every comment starts its line. -/
def IsFlush (content : String) : Prop :=
  ∀ line ∈ lines content.toList, ¬ IsIndented line

instance : DecidablePred IsComment :=
  fun _ => inferInstanceAs (Decidable (_ = _))

instance : DecidablePred IsRun :=
  fun _ => inferInstanceAs (Decidable (_ ∧ _))

instance : DecidablePred IsIndented :=
  fun _ => inferInstanceAs (Decidable (_ ∧ _))

instance : DecidablePred IsFlush :=
  fun _ => inferInstanceAs (Decidable (∀ _ ∈ _, _))

/-- The fault of a shell file without commands. -/
def noCommands (file : String) : Fault :=
  .invalid Code.recipeNoCommands (file ++ " contains no commands") (some "workflow.sh_file")

variable {line xs ys : List Char} {a b content dir file source : String} {files : Files}
  {r : Recipe} {w : ShellWorkflow} {p : Parallel}

theorem isSkipped_iff :
    isSkipped line = true ↔ line.all isBlank = true ∨ line.head? = some '#' := by
  rw [isSkipped, Bool.or_eq_true, beq_iff_eq]

theorem mem_commandLines : line ∈ commandLines xs ↔
    line ∈ lines xs ∧ line.all isBlank = false ∧ line.head? ≠ some '#' := by
  rw [commandLines, List.mem_filter, Bool.not_eq_true', ← Bool.not_eq_true, isSkipped_iff, not_or,
    Bool.not_eq_true]

/-! Texts that are put together from lines. -/

/-- What stands before a line end and what follows it have their commands apart, unless the line end
takes a carriage return along. -/
theorem commandLines_append (h : xs.getLast? ≠ some '\r') :
    commandLines (xs ++ '\n' :: ys) = commandLines xs ++ commandLines ys := by
  have hline : (([] : List Char).reverse ++ xs).getLast? ≠ some '\r' := h
  rw [commandLines, lines, linesFrom_append, List.filter_append, filter_linesFrom rfl hline]
  rfl

theorem parseCommands_append (h : a.toList.getLast? ≠ some '\r') :
    parseCommands (a ++ "\n" ++ b) = parseCommands a ++ parseCommands b := by
  have hchars : (a ++ "\n" ++ b).toList = a.toList ++ '\n' :: b.toList := by simp
  rw [parseCommands, hchars, commandLines_append h, List.map_append]
  rfl

theorem commandLines_line (h : '\n' ∉ xs) (ys : List Char) : commandLines (xs ++ '\n' :: ys) =
    [(dropReturn xs.reverse).reverse].filter (!isSkipped ·) ++ commandLines ys := by
  rw [commandLines, lines, linesFrom_of_notMem h, List.append_nil, List.filter_cons]
  split
  · next hkept => simp [hkept, commandLines]
  · next hkept => simp [hkept, commandLines]

/-- A line stays idle without the carriage return at its end. -/
theorem isSkipped_dropReturn (h : isSkipped xs = true) :
    isSkipped (dropReturn xs.reverse).reverse = true := by
  by_cases hlast : xs.reverse.head? = some '\r'
  · obtain ⟨zs, hzs⟩ := List.head?_eq_some_iff.1 hlast
    have hxs : xs = zs.reverse ++ ['\r'] := by
      rw [← List.reverse_reverse xs, hzs, List.reverse_cons]
    rw [hzs, dropReturn, isSkipped_iff]
    rw [hxs, isSkipped_iff] at h
    rcases h with hblank | hmark
    · left
      rw [List.all_append, Bool.and_eq_true] at hblank
      exact hblank.1
    · cases hrest : zs.reverse with
      | nil => exact .inl rfl
      | cons c cs =>
        rw [hrest] at hmark
        exact .inr hmark
  · rw [dropReturn_of_head hlast, List.reverse_reverse]
    exact h

/-- Whichever way a line ends, it is read as it is or without a carriage return. -/
theorem commandLines_ended (e : LineEnd) (h : '\n' ∉ xs) (ys : List Char) :
    ∃ kept, (kept = xs ∨ kept = (dropReturn xs.reverse).reverse) ∧
      commandLines (xs ++ e.text.toList ++ ys) =
        [kept].filter (!isSkipped ·) ++ commandLines ys := by
  cases e with
  | feed =>
    refine ⟨_, .inr rfl, ?_⟩
    rw [← commandLines_line h, List.append_assoc]
    rfl
  | returnFeed =>
    have hreturn : '\n' ∉ xs ++ ['\r'] := by simpa using h
    have hkept : (dropReturn (xs ++ ['\r']).reverse).reverse = xs := by simp [dropReturn]
    have hline := commandLines_line hreturn ys
    rw [hkept, List.append_assoc] at hline
    exact ⟨xs, .inl rfl, by rw [← hline, List.append_assoc]; rfl⟩

theorem newline_notMem_text (l : ShellLine) : '\n' ∉ l.text.toList := by
  cases l with
  | command t unbroken => exact unbroken
  | passed t unbroken => exact unbroken

theorem isSkipped_text (l : ShellLine) : isSkipped l.text.toList = l.command?.isNone := by
  cases l with
  | command t unbroken whole filled unmarked =>
    rw [ShellLine.command?, Option.isNone_some, ← Bool.not_eq_true, isSkipped_iff, not_or]
    exact ⟨Bool.eq_false_iff.1 filled, unmarked⟩
  | passed t unbroken idle => exact isSkipped_iff.2 idle

/-- A command is kept, and what is passed over is not. -/
theorem filter_text (l : ShellLine) :
    ([l.text.toList].filter (!isSkipped ·)).map String.ofList = l.command?.toList := by
  rw [List.filter_singleton, isSkipped_text]
  cases l with
  | command t => simp [ShellLine.command?, ShellLine.text]
  | passed t => rfl

/-- A line says the same whatever is behind it. -/
theorem parseCommands_line (l : ShellLine) (e : LineEnd) (b : String) :
    parseCommands (l.text ++ e.text ++ b) = l.command?.toList ++ parseCommands b := by
  obtain ⟨kept, hor, hread⟩ := commandLines_ended e (newline_notMem_text l) b.toList
  have hkept : [kept].filter (!isSkipped ·) = [l.text.toList].filter (!isSkipped ·) := by
    rcases hor with rfl | rfl
    · rfl
    cases l with
    | command t unbroken whole =>
      have hhead : t.toList.reverse.head? ≠ some '\r' := by
        rw [List.head?_reverse]
        exact whole
      rw [ShellLine.text, dropReturn_of_head hhead, List.reverse_reverse]
    | passed t unbroken idle =>
      have hskipped : isSkipped t.toList = true := isSkipped_iff.2 idle
      rw [ShellLine.text, List.filter_singleton, List.filter_singleton, hskipped,
        isSkipped_dropReturn hskipped]
      rfl
  rw [parseCommands, String.toList_append, String.toList_append, hread, List.map_append, hkept,
    filter_text]
  rfl

/-- A last line needs no end. -/
theorem parseCommands_last (l : ShellLine) : parseCommands l.text = l.command?.toList := by
  rw [← filter_text]
  by_cases hempty : l.text.toList = []
  · rw [parseCommands, hempty]
    rfl
  · rw [parseCommands, commandLines, lines_of_notMem (newline_notMem_text l) hempty]

theorem layOut_cons (l : ShellLine) (e : LineEnd) (rows : List (ShellLine × LineEnd))
    (last : Option ShellLine) :
    ShellLine.layOut ((l, e) :: rows) last = l.text ++ e.text ++ ShellLine.layOut rows last := by
  simp [ShellLine.layOut, String.append_assoc]

/-- Lines that are laid out are read back: the commands among them, in their order. -/
theorem parseCommands_layOut (rows : List (ShellLine × LineEnd)) (last : Option ShellLine) :
    parseCommands (ShellLine.layOut rows last) =
      (rows.map Prod.fst ++ last.toList).filterMap ShellLine.command? := by
  induction rows with
  | nil =>
    cases last with
    | none => rfl
    | some l =>
      have htext : ShellLine.layOut [] (some l) = l.text := by simp [ShellLine.layOut]
      rw [htext, parseCommands_last]
      cases l with
      | command t => rfl
      | passed t => rfl
  | cons row rows ih =>
    obtain ⟨l, e⟩ := row
    rw [layOut_cons, parseCommands_line, ih]
    cases l with
    | command t => rfl
    | passed t => rfl

/-- Files whose commands are read part by part: a text that ends a line has its commands in front of
those of what follows, and lines that are laid out, however they end, come back as the commands
among them. -/
theorem commands_laidOut :
    (∀ a b : String, a.toList.getLast? ≠ some '\r' →
      parseCommands (a ++ "\n" ++ b) = parseCommands a ++ parseCommands b) ∧
    ∀ rows last, parseCommands (ShellLine.layOut rows last) =
      (rows.map Prod.fst ++ last.toList).filterMap ShellLine.command? :=
  ⟨fun _ _ => parseCommands_append, parseCommands_layOut⟩

/-- A file of two commands, with a comment and an empty line, whose lines end in both ways. -/
def scriptRows : List (ShellLine × LineEnd) :=
  [(.passed "#!/bin/sh" (by decide) (.inr rfl), .returnFeed),
    (.command "cp $INPUT_FILE $OUTPUT_FILE" (by decide) (by decide) (by decide) (by decide), .feed),
    (.passed "" (by decide) (.inl rfl), .returnFeed)]

/-- The command on the last line, which has no end. -/
def scriptLast : ShellLine :=
  .command "gzip $OUTPUT_FILE" (by decide) (by decide) (by decide) (by decide)

theorem commands_laidOut_script :
    parseCommands ("#!/bin/sh\r\ncp a b" ++ "\n" ++ "gzip b") =
      parseCommands "#!/bin/sh\r\ncp a b" ++ parseCommands "gzip b" ∧
    parseCommands (ShellLine.layOut scriptRows (some scriptLast)) =
      ["cp $INPUT_FILE $OUTPUT_FILE", "gzip $OUTPUT_FILE"] :=
  ⟨commands_laidOut.1 _ _ (by decide), commands_laidOut.2 scriptRows (some scriptLast)⟩

/-! Which commands a shell runs. -/

theorem all_isBlank_of_isComment (h : IsComment line) : line.all isBlank = false := by
  obtain ⟨rest, hrest⟩ := List.head?_eq_some_iff.1 h
  rw [List.all_eq_false]
  refine ⟨'#', ?_, by decide⟩
  apply (List.dropWhile_suffix isBlank).subset
  rw [hrest]
  exact List.mem_cons_self

theorem isComment_of_head (h : line.head? = some '#') : IsComment line := by
  obtain ⟨rest, rfl⟩ := List.head?_eq_some_iff.1 h
  rfl

/-- A line that is kept is one to run or a comment that has blanks in front of it. -/
theorem mem_commandLines_iff : line ∈ commandLines xs ↔
    line ∈ lines xs ∧ (IsRun line ∨ IsIndented line) := by
  rw [mem_commandLines]
  constructor
  · rintro ⟨hline, hfilled, hmark⟩
    refine ⟨hline, ?_⟩
    by_cases hcomment : IsComment line
    · exact .inr ⟨hcomment, hmark⟩
    · exact .inl ⟨hfilled, hcomment⟩
  · rintro ⟨hline, ⟨hfilled, hplain⟩ | ⟨hcomment, hmark⟩⟩
    · exact ⟨hline, hfilled, fun hhead => hplain (isComment_of_head hhead)⟩
    · exact ⟨hline, all_isBlank_of_isComment hcomment, hmark⟩

theorem forall_mem_parseCommands {P : List Char → Prop} :
    (∀ command ∈ parseCommands content, P command.toList) ↔
      ∀ line ∈ commandLines content.toList, P line := by
  simp [parseCommands]

/-- Every command is run just if no comment has blanks in front of it. -/
theorem isRun_iff_isFlush :
    (∀ command ∈ parseCommands content, IsRun command.toList) ↔ IsFlush content := by
  rw [forall_mem_parseCommands]
  constructor
  · intro hrun line hline hindented
    exact (hrun line (mem_commandLines_iff.2 ⟨hline, .inr hindented⟩)).2 hindented.1
  · intro hflush line hline
    obtain ⟨hmem, hsort⟩ := mem_commandLines_iff.1 hline
    exact hsort.resolve_right (hflush line hmem)

/-- A file with nothing to run has no commands just if no comment has blanks in front of it. -/
theorem parseCommands_eq_nil_iff (h : ∀ line ∈ lines content.toList, ¬ IsRun line) :
    parseCommands content = [] ↔ IsFlush content := by
  rw [parseCommands, List.map_eq_nil_iff, List.eq_nil_iff_forall_not_mem]
  constructor
  · intro hnil line hline hindented
    exact hnil line (mem_commandLines_iff.2 ⟨hline, .inr hindented⟩)
  · intro hflush line hkept
    obtain ⟨hline, hsort⟩ := mem_commandLines_iff.1 hkept
    rcases hsort with hrun | hindented
    · exact h line hline hrun
    · exact hflush line hline hindented

theorem load_shell_eq (hread : files.read (Files.join dir file) = .ok content)
    (hcheck : p.check = .ok ()) : WorkflowSection.load files dir (.shell file p) =
      if (parseCommands content).isEmpty then .error (noCommands file)
      else .ok (.shell ⟨Files.join dir file, parseCommands content, p⟩) := by
  simp only [WorkflowSection.load, hcheck, Files.readNamed, hread]
  rfl

/-- A shell file is refused for lack of commands just if it has none. -/
theorem load_eq_noCommands_iff (hread : files.read (Files.join dir file) = .ok content)
    (hcheck : p.check = .ok ()) :
    WorkflowSection.load files dir (.shell file p) = .error (noCommands file) ↔
      parseCommands content = [] := by
  rw [load_shell_eq hread hcheck, ← List.isEmpty_iff]
  split
  · next hempty => simp [hempty]
  · next hempty => simp [hempty]

/-- The commands of a loaded recipe are those of its shell file. -/
theorem commands_of_ofText (h : ofText files dir source = .ok r) (hw : r.workflow = .shell w) :
    ∃ content, files.read w.file = .ok content ∧ w.commands = parseCommands content := by
  obtain ⟨sec, hload⟩ := exists_section_of_ofText h
  rw [hw] at hload
  cases sec with
  | shell file p =>
    obtain ⟨content, hread, hw⟩ := WorkflowSection.commanded_of_load hload
    cases hw
    exact ⟨content, hread, rfl⟩
  | visualization size file =>
    obtain ⟨v, document, hv, -⟩ := WorkflowSection.configured_of_load hload
    cases hv

end Recipe

namespace ShellWorkflow

open Recipe

variable {r : Recipe} {w : ShellWorkflow} {g : Graph} {fetch publish : Task}
  {stage : Nat → String → Stage} {P : String → Prop}

/-- Each processing stage runs a command of its own in all of its tasks, and one of some sort. -/
def Processes (w : ShellWorkflow) (r : Recipe) (P : String → Prop) (g : Graph) : Prop :=
  ∀ s ∈ g.stages, ∀ k, s.kind = .process k → ∃ command, w.commands[k]? = some command ∧
    P command ∧ ∀ t ∈ s.tasks, w.RunsCommand r k command t

theorem processes_shellStages_iff (hkind : ∀ k command, (stage k command).kind = .process k)
    (hruns : ∀ k command, ∀ t ∈ (stage k command).tasks, w.RunsCommand r k command t) :
    w.Processes r P ((emptyGraph r).appendAll (shellStages fetch stage w.commands publish)) ↔
      ∀ command ∈ w.commands, P command := by
  constructor
  · intro hall command hmem
    obtain ⟨k, hk⟩ := List.mem_iff_getElem?.1 hmem
    obtain ⟨ds, hstage⟩ : ∃ ds, Graph.behind ds (stage k command) ∈
      ((emptyGraph r).appendAll (shellStages fetch stage w.commands publish)).stages :=
      exists_shellStage hk
    obtain ⟨command', hk', hcommand, -⟩ := hall _ hstage k (hkind k command)
    rw [hk] at hk'
    cases hk'
    exact hcommand
  · intro hall s hs k hk
    obtain ⟨command, ds, hcommand, rfl⟩ := shellStage_of_kind hkind hs hk
    refine ⟨command, hcommand, hall command (List.mem_of_getElem? hcommand), ?_⟩
    intro t ht
    obtain ⟨u, hu, rfl⟩ := List.mem_map.1 ht
    exact hruns k command u hu

/-- The processing stages of a compiled recipe run its commands, of whatever sort these are. -/
theorem processes_iff (h : r.compile = .ok g) (hw : r.workflow = .shell w) :
    w.Processes r P g ↔ ∀ command ∈ w.commands, P command := by
  obtain ⟨ss, hplan, rfl⟩ := compile_planned h
  cases hplan with
  | sequential hw' hseq =>
    cases hw.symm.trans hw'
    refine processes_shellStages_iff (fun _ _ => rfl) ?_
    intro k command t ht
    rw [List.mem_singleton.1 ht]
    exact runsCommand_stepTask hseq
  | partitioned hw' hpar =>
    cases hw.symm.trans hw'
    exact processes_shellStages_iff (fun _ _ => rfl) fun _ _ _ => runsCommand_commandTasks hpar
  | visualization hv => cases hw.symm.trans hv

end ShellWorkflow

namespace Recipe

variable {content dir file : String} {files : Files}

/-- A command of a shell file is a line to run or a comment that has blanks in front of it, and of
these there is none just if all comments are passed over: just then every stage runs something, and
just then a file with nothing to run is refused. -/
theorem commands_run_iff (hread : files.read (Files.join dir file) = .ok content) :
    (∀ command ∈ parseCommands content, IsRun command.toList ∨ IsIndented command.toList) ∧
      ((∀ command ∈ parseCommands content, IsRun command.toList) ↔ IsFlush content) ∧
      (∀ p : Parallel, p.check = .ok () → (∀ line ∈ lines content.toList, ¬ IsRun line) →
        (WorkflowSection.load files dir (.shell file p) = .error (noCommands file) ↔
          IsFlush content)) ∧
      ∀ source r w inputs g, ofText files dir source = .ok r → r.workflow = .shell w →
        w.file = Files.join dir file → { r with inputs := inputs }.compile = .ok g →
        (w.Processes { r with inputs := inputs } (fun command => IsRun command.toList) g ↔
          IsFlush content) := by
  refine ⟨?_, isRun_iff_isFlush, ?_, ?_⟩
  · exact forall_mem_parseCommands.2 fun line hline => (mem_commandLines_iff.1 hline).2
  · intro p hcheck hidle
    rw [load_eq_noCommands_iff hread hcheck]
    exact parseCommands_eq_nil_iff hidle
  · intro source r w inputs g hr hw hfile hg
    obtain ⟨content', hread', hcommands⟩ := commands_of_ofText hr hw
    rw [hfile, hread] at hread'
    cases hread'
    rw [ShellWorkflow.processes_iff hg hw, hcommands]
    exact isRun_iff_isFlush

/-- A recipe's directory with a shell file. -/
def scripted (content : String) : FileTree :=
  .directory [("d", .directory [("recipe.sh", .file (some content))])]

/-- The recipe whose shell file has some commands. -/
def running (commands : List String) : Recipe where
  name := "r"
  id := "r"
  image := none
  inputs := [⟨.fileSystem, "/a", none, []⟩]
  output := .pvc
  workflow := .shell ⟨"d/recipe.sh", commands, {}⟩
  directory := "d"

theorem commands_run_iff_passing :
    IsFlush "# all\ntrue\n" ∧ ∃ g, (running ["true"]).compile = .ok g ∧
      ShellWorkflow.Processes ⟨"d/recipe.sh", ["true"], {}⟩ (running ["true"])
        (fun command => IsRun command.toList) g := by
  have hread : (scripted "# all\ntrue\n").files.read (Files.join "d" "recipe.sh") =
      .ok "# all\ntrue\n" := by decide +kernel
  have hr : ofText (scripted "# all\ntrue\n").files "d" (naming "recipe.sh") =
      .ok (running ["true"]) := by decide +kernel
  have hok : (running ["true"]).compile.toOption.isSome := by decide +kernel
  have hflush : IsFlush "# all\ntrue\n" := by decide +kernel
  cases hg : (running ["true"]).compile with
  | error f => simp [hg, Except.toOption] at hok
  | ok g =>
    obtain ⟨-, -, -, hprocesses⟩ := commands_run_iff hread
    have hfile : "d/recipe.sh" = Files.join "d" "recipe.sh" := by decide
    exact ⟨hflush, g, rfl, (hprocesses _ _ _ _ g hr rfl hfile hg).2 hflush⟩

/-- A comment that has blanks in front of it is taken for a command, and the file that holds nothing
else for one with commands: its only step leaves the shell without a command to go on with. -/
theorem commands_indented : IsIndented "  # note".toList ∧
    parseCommands "  # note\n" = ["  # note"] ∧
    ofText (scripted "  # note\n").files "d" (naming "recipe.sh") = .ok (running ["  # note"]) ∧
    ((running ["  # note"]).compile.toOption.bind (·.task? "step-0")).bind (·.container.script?) =
      some "mkdir -p /output_dir/ &&   # note" := by
  refine ⟨by decide, by decide +kernel, by decide +kernel, by decide +kernel⟩

end Recipe

end RecipeFlow
