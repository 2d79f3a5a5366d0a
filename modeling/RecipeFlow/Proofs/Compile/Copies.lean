import RecipeFlow.Proofs.Compile.Directories
import RecipeFlow.Proofs.Compile.Fetching
import RecipeFlow.Proofs.Table

/-! Copied inputs: where a fetching script copies them to, and which are overwritten there. -/
namespace RecipeFlow

/-- The file that a command copies to and the path of what it copies. -/
def Shell.copy? : List String → Option (String × String)
  | ["cp", path, file] => some (file, path)
  | _ => none

/-- What a graph's fetching task copies, in order: each file with the path of what is copied. -/
def Graph.copies? (g : Graph) : Option (List (String × String)) :=
  g.fetchCommands?.map (·.filterMap Shell.copy?)

/-- The paths that a recipe has copied. -/
def Recipe.copiedPaths (r : Recipe) : List String :=
  (r.inputs.filter (·.kind = .fileSystem)).map Input.value

/-- A task finds under INPUT_DIR what another one leaves in a directory: it is handed that as an
artifact, or the directory is on a volume that both mount. -/
def Task.IsHanded (t : Task) (dir : String) (u : Task) : Prop :=
  match t.consumes with
  | some c => c.fromTask = u.name ∧
      (∃ a ∈ u.container.outputArtifacts, a.name = c.artifact ∧ a.path = dir) ∧
      ∃ a ∈ t.container.inputArtifacts, a.name = c.asInput ∧ t.env? "INPUT_DIR" = some a.path
  | none => t.env? "INPUT_DIR" = some dir ∧ t.container.mounts = u.container.mounts

/-- What becomes of the inputs that a recipe has copied into a directory. -/
structure ShellWorkflow.IsCopied (r : Recipe) (w : ShellWorkflow) (g : Graph) (dir : String)
    (copies : List (String × String)) : Prop where
  /-- Each is copied to its base name. -/
  copied : copies = r.copiedPaths.map fun path =>
    (Text.trimSlashes dir ++ "/" ++ basename path, path)
  /-- No two are copied to one file, unless commands run one after the other and two base names
  are the same. -/
  apart : (copies.map Prod.fst).Nodup ↔
    w.parallel.enabled = true ∨ (r.copiedPaths.map basename).Nodup
  /-- Each is still there in the end, unless another of its base name has been copied over it. -/
  kept : (∀ c ∈ copies, Table.lastValue? c.1 copies = some c.2) ↔ w.parallel.enabled = true ∨
    ∀ p ∈ r.copiedPaths, ∀ q ∈ r.copiedPaths, basename p = basename q → p = q
  /-- The first command's tasks are handed that directory. -/
  handed : w.commands ≠ [] → ∃ fetch stage, g.task? fetchName = some fetch ∧
    g.stages.find? (·.kind = .process 0) = some stage ∧
    ∀ t ∈ stage.tasks, t.IsHanded dir fetch

namespace FetchItem

open Shell

variable {items : List FetchItem} {is : List Input} {dir : String} {naming : FetchNaming}

/-- What is copied for an item. -/
def copied? (dir : String) : FetchItem → Option (String × String)
  | copy path name => some (Text.trimSlashes dir ++ "/" ++ name, path)
  | _ => none

theorem copy?_words? (i : FetchItem) : (i.words? dir naming).bind copy? = i.copied? dir := by
  cases i with
  | mounted path => rfl
  | copy path name => rfl
  | download url name =>
    cases naming with
    | pinned => rfl
    | server =>
      rw [words?, bareWords]
      split
      · rfl
      · rfl

/-- Only the commands of items copy. -/
theorem filterMap_fetchWords :
    (fetchWords items dir naming).filterMap copy? = items.filterMap (copied? dir) := by
  have hmkdir : copy? (["mkdir", "-p"] ++ bareWords dir) = none := by
    rw [bareWords]
    split
    · rfl
    · rfl
  have hitems : (items.filterMap (words? dir naming)).filterMap copy? =
      items.filterMap (copied? dir) := by
    rw [List.filterMap_filterMap]
    exact List.filterMap_congr fun i _ => copy?_words? i
  rw [fetchWords, List.filterMap_cons_none hmkdir, ← hitems]
  split
  · next hnone =>
    rw [hnone]
    rfl
  · rfl

theorem filterMap_ofInput {i : Input} (h : ofInput i = .ok items) :
    items.filterMap (copied? dir) = if i.kind = .fileSystem then
      [(Text.trimSlashes dir ++ "/" ++ basename i.value, i.value)] else [] := by
  rcases ofInput_cases h with ⟨hkind, rfl⟩ | ⟨hkind, rfl⟩ | ⟨hkind, rfl⟩ | ⟨hkind, rfl⟩
  · rw [hkind]
    rfl
  · rw [if_pos hkind]
    rfl
  · rw [hkind]
    rfl
  · rw [hkind, List.filterMap_map]
    exact List.filterMap_eq_nil_iff.2 fun _ _ => rfl

/-- The inputs on the file system are copied, each to its base name. -/
theorem filterMap_copied? (h : ofInputs is = .ok items) : items.filterMap (copied? dir) =
    ((is.filter (·.kind = .fileSystem)).map Input.value).map fun path =>
      (Text.trimSlashes dir ++ "/" ++ basename path, path) := by
  obtain ⟨files, hfiles, rfl⟩ := eq_flatMap_of_ofInputs h
  clear h
  induction is with
  | nil => rfl
  | cons i is ih =>
    obtain ⟨hi, his⟩ := List.forall_mem_cons.1 hfiles
    rw [List.flatMap_cons, List.filterMap_append, filterMap_ofInput hi, ih his]
    by_cases hkind : i.kind = .fileSystem
    · rw [if_pos hkind, List.filter_cons_of_pos (by simpa using hkind)]
      rfl
    · rw [if_neg hkind, List.filter_cons_of_neg (by simpa using hkind)]
      rfl

end FetchItem

namespace ShellWorkflow

variable {r : Recipe} {w : ShellWorkflow} {g : Graph} {items : List FetchItem} {command : String}
  {p q dir : String}

/-- The directory that a recipe's inputs are fetched into. -/
def fetchDir (r : Recipe) (w : ShellWorkflow) : String :=
  if w.parallel.enabled then inputsDir r.id else outputDir

theorem filterMap_fetchCommands (hitems : FetchItem.ofInputs r.inputs = .ok items) :
    (fetchCommands r w items).filterMap Shell.copy? = r.copiedPaths.map fun path =>
      (Text.trimSlashes (fetchDir r w) ++ "/" ++ basename path, path) := by
  have hcopies : ∀ dir naming, (FetchItem.fetchWords items dir naming).filterMap Shell.copy? =
      r.copiedPaths.map fun path => (Text.trimSlashes dir ++ "/" ++ basename path, path) :=
    fun dir naming => FetchItem.filterMap_fetchWords.trans (FetchItem.filterMap_copied? hitems)
  rw [fetchCommands, fetchDir]
  split
  · rw [List.filterMap_cons_none rfl, hcopies]
  · exact hcopies _ _

theorem below_injective (dir : String) : Function.Injective (dir ++ "/" ++ ·) := by
  intro p q h
  have hlist := congrArg String.toList h
  simp only [String.toList_append, List.append_assoc, List.append_cancel_left_eq] at hlist
  exact String.toList_inj.1 hlist

/-- Items with names of their own are copied to files of their own. -/
theorem nodup_copied? (dir : String) (h : (items.map FetchItem.filename).Nodup) :
    ((items.filterMap (FetchItem.copied? dir)).map Prod.fst).Nodup := by
  rw [List.Nodup, List.pairwise_map] at h ⊢
  refine List.Pairwise.filterMap _ ?_ h
  intro i j hne c hc d hd heq
  cases i with
  | download url name | mounted path => cases hc
  | copy path name =>
    cases j with
    | download url name | mounted path => cases hd
    | copy path' name' =>
      cases hc
      cases hd
      exact hne (below_injective _ heq)

/-- Nothing is copied to one file twice in a partitioned recipe. -/
theorem nodup_basenames (hg : r.compile = .ok g) (hw : r.workflow = .shell w)
    (hpar : w.parallel.enabled = true) : (r.copiedPaths.map basename).Nodup := by
  obtain ⟨ss, hplan, -⟩ := Recipe.compile_planned hg
  cases hplan with
  | visualization hv => cases hw.symm.trans hv
  | sequential hw' hseq =>
    obtain rfl : w = _ := Workflow.shell.inj (hw.symm.trans hw')
    cases hpar.symm.trans hseq
  | partitioned _ _ hitems hdistinct =>
    have hnodup := nodup_copied? "" (FetchItem.nodup_filename hdistinct)
    rw [FetchItem.filterMap_copied? hitems, List.map_map] at hnodup
    refine List.Nodup.of_map (Text.trimSlashes "" ++ "/" ++ ·) ?_
    rw [List.map_map]
    exact hnodup

/-- The first command's tasks are handed what has been fetched. -/
theorem isHanded_of_compile (hg : r.compile = .ok g) (hw : r.workflow = .shell w)
    (hc : w.commands ≠ []) : ∃ fetch stage, g.task? fetchName = some fetch ∧
      g.stages.find? (·.kind = .process 0) = some stage ∧
      ∀ t ∈ stage.tasks, t.IsHanded (fetchDir r w) fetch := by
  obtain ⟨items, hitems, -⟩ := bind_eq_ok.1 hg
  obtain ⟨command, rest, hc⟩ := List.exists_cons_of_ne_nil hc
  obtain ⟨fetch, hfetch, hcontainer⟩ := exists_fetch_of_compile hg hw hitems
  have hname : fetch.name = fetchName := by simpa using List.find?_some hfetch
  refine ⟨fetch, _, hfetch, find?_firstStage hg hw hitems hc, ?_⟩
  intro t ht
  obtain ⟨u, hu, rfl⟩ := List.mem_map.1 ht
  rw [firstStage] at hu
  rw [fetchDir]
  cases hpar : w.parallel.enabled with
  | false =>
    rw [hpar] at hu hcontainer
    obtain rfl := List.mem_singleton.1 hu
    have henv : (stepTask r 0 command).env? "INPUT_DIR" = some inputDir := by
      rw [Task.env?, stepTask, Table.find?_ofList]
      rfl
    refine ⟨hname.symm, ⟨outputArtifact, ?_, rfl, rfl⟩, inputArtifact, ?_, rfl, henv⟩
    · rw [hcontainer]
      exact List.mem_singleton_self _
    · exact List.mem_singleton_self _
  | true =>
    rw [hpar] at hu hcontainer
    obtain ⟨p, files, rfl⟩ := mem_commandTasks hu
    refine ⟨standsAt_fileTask.input, ?_⟩
    rw [hcontainer]
    rfl

/-- The inputs that a compiled recipe has copied are handed on with those that it downloads; two of
one base name take each other's place, if they are not refused. -/
theorem isCopied_of_compile (hg : r.compile = .ok g) (hw : r.workflow = .shell w)
    (hid : Recipe.deriveId r.name = .ok r.id) :
    ∃ copies, g.copies? = some copies ∧ w.IsCopied r g (fetchDir r w) copies := by
  obtain ⟨items, hitems, -⟩ := bind_eq_ok.1 hg
  have hcopies : g.copies? = some (r.copiedPaths.map fun path =>
      (Text.trimSlashes (fetchDir r w) ++ "/" ++ basename path, path)) := by
    rw [Graph.copies?, fetchCommands?_of_compile hg hw hid hitems, Option.map_some,
      filterMap_fetchCommands hitems]
  have hinj := below_injective (Text.trimSlashes (fetchDir r w))
  refine ⟨_, hcopies, rfl, ?_, ?_, isHanded_of_compile hg hw⟩
  · have hfiles : (r.copiedPaths.map fun path =>
        (Text.trimSlashes (fetchDir r w) ++ "/" ++ basename path, path)).map Prod.fst =
          (r.copiedPaths.map basename).map (Text.trimSlashes (fetchDir r w) ++ "/" ++ ·) := by
      rw [List.map_map, List.map_map]
      rfl
    rw [hfiles, List.nodup_map_iff hinj]
    exact ⟨.inr, fun h => h.elim (nodup_basenames hg hw) id⟩
  · have hsame : ∀ p q, Text.trimSlashes (fetchDir r w) ++ "/" ++ basename p =
        Text.trimSlashes (fetchDir r w) ++ "/" ++ basename q ↔ basename p = basename q :=
      fun _ _ => hinj.eq_iff
    rw [Table.lastValue?_eq_iff]
    simp only [List.forall_mem_map, hsame]
    refine ⟨.inr, ?_⟩
    rintro (hpar | h)
    · intro p hp q hq
      exact List.inj_on_of_nodup_map (nodup_basenames hg hw hpar) hp hq
    · exact h

/-- A recipe that has two files copied, one after the other. -/
def copying (first second : String) : Recipe where
  name := "r"
  id := "r"
  image := none
  inputs := [⟨.fileSystem, first, none, []⟩, ⟨.fileSystem, second, none, []⟩]
  output := .pvc
  workflow := .shell ⟨"d/recipe.sh", ["gzip $INPUT_DIR/*"], ⟨false, none⟩⟩
  directory := "d"

theorem isCopied_of_compile_copying : ∃ w g copies,
    (copying "/a/x.nc" "/b/y.nc").workflow = .shell w ∧
    Recipe.deriveId (copying "/a/x.nc" "/b/y.nc").name = .ok (copying "/a/x.nc" "/b/y.nc").id ∧
    (copying "/a/x.nc" "/b/y.nc").compile = .ok g ∧ g.copies? = some copies ∧
    w.IsCopied (copying "/a/x.nc" "/b/y.nc") g "/output_dir/" copies := by
  have hok : (copying "/a/x.nc" "/b/y.nc").compile.toOption.isSome := by decide +kernel
  have hid : Recipe.deriveId "r" = .ok "r" := by decide +kernel
  cases hg : (copying "/a/x.nc" "/b/y.nc").compile with
  | error f => simp [hg, Except.toOption] at hok
  | ok g =>
    obtain ⟨copies, hcopies, hcopied⟩ := isCopied_of_compile hg rfl hid
    exact ⟨_, g, copies, rfl, hid, rfl, hcopies, hcopied⟩

/-- Two files of one base name are copied to one place, where the first one is lost. -/
theorem copying_overwritten : ∃ copies,
    (copying "/a/x.nc" "/b/x.nc").compile.toOption.bind Graph.copies? = some copies ∧
    copies = [("/output_dir/x.nc", "/a/x.nc"), ("/output_dir/x.nc", "/b/x.nc")] ∧
    ¬ (copies.map Prod.fst).Nodup ∧
    Table.lastValue? "/output_dir/x.nc" copies = some "/b/x.nc" :=
  ⟨_, by decide +kernel, rfl, by decide, by decide⟩

end ShellWorkflow

end RecipeFlow
