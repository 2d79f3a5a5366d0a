import RecipeFlow.Proofs.Compile.Effects
import RecipeFlow.Proofs.Engine.Closed
import RecipeFlow.Proofs.Volume.Isolation
import RecipeFlow.Proofs.Volume.Mounts

/-! Where on the shared volume a recipe's data lie, as every task sees it through its own mounts:
what publishes them, what looks for them and what clears them mean one directory. -/
namespace RecipeFlow

open Files

variable {id name path q : String} {c : Container} {r : Recipe} {g : Graph} {t u publish : Task}
  {items : List FetchItem} {w : ShellWorkflow}

/-- What a graph of partitioned commands does with the volume besides publishing: all of it is
below the recipe's scratch directory. -/
structure ShellWorkflow.KeepsToScratch (id : String) (g : Graph) : Prop where
  told : ∀ s ∈ g.stages, ∀ k, s.kind = .process k → ∀ t ∈ s.tasks,
    ∀ key ∈ ["INPUT_DIR", "OUTPUT_DIR"], (t.env? key).isSome
  env : ∀ t ∈ g.tasks, ∀ key ∈ ["INPUT_DIR", "OUTPUT_DIR"], ∀ path, t.env? key = some path →
    t.container.LeadsBelow [scratchRoot, id] path
  /-- Fetching removes one directory and stages in another. -/
  fetched : ∃ t removed made, g.task? fetchName = some t ∧
    t.container.script?.bind Shell.renewed? = some (removed, made) ∧
    t.container.LeadsBelow [scratchRoot, id] removed ∧
    t.container.LeadsBelow [scratchRoot, id] made
  /-- Publishing gathers the directories of a pattern, and removes one in the end. -/
  gathered : ∃ t pattern removed, g.task? PublishTask.name = some t ∧
    t.container.script?.bind PublishTask.gathered? = some pattern ∧
    (∀ path, Shell.isMatch pattern true path.toList →
      t.container.LeadsBelow [scratchRoot, id] path) ∧
    t.container.script?.bind Shell.cleaned? = some removed ∧
    t.container.LeadsBelow [scratchRoot, id] removed

/-- What a shell recipe's graph does with the volume. -/
structure ShellWorkflow.IsLocated (w : ShellWorkflow) (id : String) (g : Graph) : Prop where
  /-- The publishing task alone has a directory of the volume mounted by itself. -/
  published : ∃ t, g.task? PublishTask.name = some t ∧ ⟨outputDir, some id⟩ ∈ t.container.mounts ∧
    t.targets = [id] ∧ t.container.place? outputDir = some [id]
  others : ∀ t ∈ g.tasks, t.name ≠ PublishTask.name → t.targets = []
  /-- Where commands run in one task each, no other task has any of the volume mounted. -/
  apart : w.parallel.enabled = false →
    ∀ t ∈ g.tasks, t.name ≠ PublishTask.name → t.container.mounts = []
  scratch : w.parallel.enabled = true → KeepsToScratch id g

/-- What a visualization's graph does with the volume. -/
structure Visualization.IsLocated (id : String) (g : Graph) : Prop where
  env : ∀ key ∈ ["INPUT_PATH", "BATCH_DIR", "CONFIG_PATH"],
    (∃ t ∈ g.tasks, (t.env? key).isSome) ∧
      ∀ t ∈ g.tasks, ∀ path, t.env? key = some path → t.container.LeadsBelow [id] path
  artifacts : ∀ t ∈ g.tasks, ∀ a ∈ t.container.inputArtifacts ++ t.container.outputArtifacts,
    t.container.LeadsBelow [id] a.path
  staged : ∃ t dirs file, g.task? stageConfigName = some t ∧
    (t.container.script?.bind fun s => Shell.staged? (Text.split '\n' s.toList)) =
      some (dirs, file) ∧
    (∀ dir ∈ dirs, t.container.LeadsBelow [id] dir) ∧ t.container.LeadsBelow [id] file

/-- All agree on where a recipe's data lie. -/
structure Recipe.IsLocated (r : Recipe) (g : Graph) : Prop where
  checked : ∃ t path, (Publish.checkGraph r.id).tasks = [t] ∧
    t.container.script?.bind Shell.tested? = some path ∧ t.container.place? path = some [r.id]
  cleared : ∃ t path, (Publish.clearGraph r.id).tasks = [t] ∧
    t.container.script?.bind Shell.removed? = some path ∧ t.container.place? path = some [r.id]
  workflow : match r.workflow with
    | .shell w => w.IsLocated r.id g
    | .visualization _ => Visualization.IsLocated r.id g

namespace PublishTask

variable {source : PublishSource} {k : Nat}

theorem mounts_of_make_task (h : make r (.task name) = .ok publish) (hout : r.output = .pvc) :
    publish.container.mounts = [⟨outputDir, some r.id⟩] := by
  obtain ⟨text, -, hp⟩ := bind_eq_ok.1 h
  cases hp
  rw [hout]
  rfl

theorem mounts_of_make_partitions (h : make r (.partitions k) = .ok publish)
    (hout : r.output = .pvc) :
    publish.container.mounts = [⟨volumeMount, none⟩, ⟨outputDir, some r.id⟩] := by
  obtain ⟨text, -, hp⟩ := bind_eq_ok.1 h
  cases hp
  rw [hout]
  rfl

/-- What publishes partitions ends with removing what they left. -/
theorem cleaned?_of_make (h : make r (.partitions k) = .ok publish)
    (hid : Recipe.deriveId r.name = .ok r.id) :
    publish.container.script?.bind Shell.cleaned? = some (scratchDir r.id) := by
  obtain ⟨text, -, hp⟩ := bind_eq_ok.1 h
  cases hp
  have hscript : (forOutput r.id r.output { Container.shell (gather r.id k ++ " && " ++ text ++
      " && rm -rf " ++ scratchDir r.id) with mounts := [⟨volumeMount, none⟩] }).script? =
        some (gather r.id k ++ " && " ++ text ++ " && rm -rf " ++ scratchDir r.id) := by
    cases r.output <;> rfl
  rw [hscript, Option.bind_some, Shell.cleaned?_append _ (Recipe.isPlain_scratchDir hid)]

theorem env_of_make {source : PublishSource} (h : make r source = .ok publish) :
    publish.container.env = [] := by
  obtain ⟨text, -, hp⟩ := bind_eq_ok.1 h
  cases hp
  cases source <;> cases r.output <;> rfl

/-- Whatever is gathered is right below the scratch directory. -/
theorem exists_of_isMatch (h : Shell.isMatch (pattern id k) true path.toList) :
    ∃ part, IsName part ∧ path = scratchDir id ++ "/" ++ part := by
  have hlast : (stem id k).toList.getLast? = some '-' := by
    rw [stem, String.toList_append, List.getLast?_append]
    rfl
  obtain ⟨ys, hys, hplain⟩ := (Shell.isMatch_star hlast (by decide)).1 h
  refine ⟨"cmd-" ++ toString k ++ "-partition-" ++ String.ofList ys,
    isName_of_head (c := 'c') ?_ (by decide) ?_, ?_⟩
  · simp [String.toList_append]
  · simp only [String.toList_append, List.mem_append, not_or, String.toList_ofList]
    exact ⟨⟨⟨by decide, slash_notMem_toString k⟩, by decide⟩, hplain⟩
  · apply String.toList_injective
    rw [hys]
    simp [stem, String.toList_append]

end PublishTask

namespace ShellWorkflow

variable {fetch : Task} {stage : Nat → String → Stage} {commands : List String} {n k : Nat}
  {s : Stage}

theorem mem_shellStages (h : t ∈ (shellStages fetch stage commands publish).flatMap Stage.tasks) :
    t = fetch ∨ (∃ k command, t ∈ (stage k command).tasks) ∨ t = publish := by
  obtain ⟨s, hs, ht⟩ := List.mem_flatMap.1 h
  rw [shellStages, List.mem_append, List.mem_cons, List.mem_map, List.mem_singleton] at hs
  rcases hs with (rfl | ⟨⟨command, k⟩, -, rfl⟩) | rfl
  · exact .inl (List.mem_singleton.1 ht)
  · exact .inr (.inl ⟨k, command, ht⟩)
  · exact .inr (.inr (List.mem_singleton.1 ht))

/-- The tasks of a partitioned command run on files of partitions of it. -/
theorem fileTask_of_kind
    (hs : s ∈ ((emptyGraph r).appendAll (partitionedStages r w items publish)).stages)
    (hk : s.kind = .process k) (ht : t ∈ s.tasks) :
    ∃ p files command ds,
      t = { fileTask r ⟨r.id, k, p⟩ files command with dependencies := ds } := by
  obtain ⟨command, ds, -, rfl⟩ := stage_of_kind hs hk
  obtain ⟨u, hu, rfl⟩ := List.mem_map.1 ht
  obtain ⟨p, files, rfl⟩ := mem_commandTasks hu
  exact ⟨p, files, command, ds, rfl⟩

theorem renewed?_stagingTask (h : Recipe.deriveId name = .ok r.id) (items : List FetchItem) :
    (stagingTask r items).container.script?.bind Shell.renewed? =
      some (scratchDir r.id, inputsDir r.id) := by
  have hremoved := Recipe.isPlain_scratchDir h
  have hmade : Shell.IsPlain (inputsDir r.id) := hremoved.append (Shell.isPlain_of_all (by decide))
  have hends : ∀ cs, Shell.Ends (" && ".toList ++ cs) := by
    intro cs c hc
    cases hc
    decide
  have hscript : (stagingTask r items).container.script? = some ("rm -rf " ++ scratchDir r.id ++
      " && " ++ FetchItem.fetchCommand items (inputsDir r.id) .pinned) := rfl
  obtain ⟨rest, hchars⟩ : ∃ rest, ("rm -rf " ++ scratchDir r.id ++ " && " ++
      FetchItem.fetchCommand items (inputsDir r.id) .pinned).toList = "rm -rf ".toList ++
        ((scratchDir r.id).toList ++ (" && mkdir -p ".toList ++
          ((inputsDir r.id).toList ++ (" && ".toList ++ rest)))) := by
    have hjoin : " && mkdir -p ".toList = " && ".toList ++ "mkdir -p ".toList := rfl
    simp only [FetchItem.fetchCommand, String.toList_append, hjoin, List.append_assoc]
    exact ⟨_, rfl⟩
  have hfirst : Shell.Ends (" && mkdir -p ".toList ++
      ((inputsDir r.id).toList ++ (" && ".toList ++ rest))) := hends _
  rw [hscript, Option.bind_some, Shell.renewed?, hchars]
  simp only [dropPrefix?_append, Option.bind_eq_bind, Option.bind_some,
    Shell.readWord_plain hremoved hfirst, Shell.readWord_plain hmade (hends rest), Option.pure_def,
    String.ofList_toList]

/-- Whatever tells a partitioned recipe's tasks their directories names some below the scratch
directory. -/
theorem leadsBelow_of_env (hid : Recipe.deriveId r.name = .ok r.id)
    (hmake : PublishTask.make r (.partitions k) = .ok publish)
    (hu : u ∈ (partitionedStages r w items publish).flatMap Stage.tasks) {key : String}
    (hkey : key ∈ ["INPUT_DIR", "OUTPUT_DIR"]) (hpath : u.env? key = some path) :
    u.container.LeadsBelow [scratchRoot, r.id] path := by
  rcases mem_shellStages hu with rfl | ⟨k', command, hmem⟩ | rfl
  · cases hpath
  · obtain ⟨p, files, rfl⟩ := mem_commandTasks hmem
    have hat : (fileTask r ⟨r.id, k', p⟩ files command).StandsAt ⟨r.id, k', p⟩ := standsAt_fileTask
    rcases List.mem_pair.1 hkey with rfl | rfl
    · obtain rfl := Option.some.inj (hat.input.symm.trans hpath)
      exact Volume.leadsBelow_inputDir hid rfl k' p
    · obtain rfl := Option.some.inj (hat.output.symm.trans hpath)
      exact Volume.leadsBelow_partitionDir hid rfl k' p
  · rw [Task.env?, PublishTask.env_of_make hmake] at hpath
    cases hpath

section

variable (hid : Recipe.deriveId r.name = .ok r.id) (hout : r.output = .pvc)
include hid hout

/-- The publishing task publishes to the recipe's directory. -/
theorem exists_published {ss : List Stage} {source : PublishSource}
    (hnames : ((ss.flatMap Stage.tasks).map Task.name).Nodup)
    (hmem : publish ∈ ss.flatMap Stage.tasks) (hmake : PublishTask.make r source = .ok publish) :
    ∃ t, ((emptyGraph r).appendAll ss).task? PublishTask.name = some t ∧
      ⟨outputDir, some r.id⟩ ∈ t.container.mounts ∧ t.targets = [r.id] ∧
      t.container.place? outputDir = some [r.id] := by
  obtain ⟨t, ht, hcontainer⟩ := Graph.exists_found (g := emptyGraph r) rfl hnames hmem
  rw [PublishTask.name_of_make hmake] at ht
  have htargets := PublishTask.targets_of_make hmake
  rw [if_pos hout] at htargets
  have hmounts : publish.container.mounts = [⟨outputDir, some r.id⟩] ∨
      publish.container.mounts = [⟨volumeMount, none⟩, ⟨outputDir, some r.id⟩] := by
    cases source with
    | task n => exact .inl (PublishTask.mounts_of_make_task hmake hout)
    | partitions k => exact .inr (PublishTask.mounts_of_make_partitions hmake hout)
  refine ⟨t, ht, ?_, ?_, ?_⟩
  · rw [hcontainer]
    rcases hmounts with h | h <;> simp [h]
  · rw [Task.targets, hcontainer]
    exact htargets
  · rw [hcontainer]
    exact Volume.place?_outputDir hid hmounts

/-- Besides publishing, a partitioned recipe keeps to its scratch directory. -/
theorem keepsToScratch (hmake : PublishTask.make r (.partitions (w.commands.length - 1)) =
      .ok publish) :
    KeepsToScratch r.id ((emptyGraph r).appendAll (partitionedStages r w items publish)) := by
  have hscratch := Volume.parts_scratchDir hid
  have hnames := @nodup_partitioned r w items publish (PublishTask.name_of_make hmake)
  refine ⟨?_, ?_, ?_, ?_⟩
  · intro s hs k hk t ht key hkey
    obtain ⟨p, files, command, ds, rfl⟩ := fileTask_of_kind hs hk ht
    have hat : (fileTask r ⟨r.id, k, p⟩ files command).StandsAt ⟨r.id, k, p⟩ := standsAt_fileTask
    rcases List.mem_pair.1 hkey with rfl | rfl
    · exact Option.isSome_of_eq_some hat.input
    · exact Option.isSome_of_eq_some hat.output
  · intro t ht key hkey path hpath
    obtain ⟨u, hu, -, hcontainer⟩ := Graph.exists_planned rfl ht
    rw [Task.env?, ← hcontainer] at hpath
    rw [← hcontainer]
    exact leadsBelow_of_env hid hmake hu hkey hpath
  · obtain ⟨t, ht, hcontainer⟩ := Graph.exists_found (g := emptyGraph r) rfl hnames
      (List.mem_flatMap.2 ⟨_, List.mem_cons_self, List.mem_singleton_self (stagingTask r items)⟩)
    refine ⟨t, _, _, ht, (congrArg (·.script?.bind Shell.renewed?) hcontainer).trans
      (renewed?_stagingTask hid items), ?_, ?_⟩
    · rw [hcontainer]
      exact Volume.leadsBelow_self rfl hscratch
    · rw [hcontainer]
      exact Volume.leadsBelow_inputsDir hid rfl
  · have hmem : publish ∈ (partitionedStages r w items publish).flatMap Stage.tasks :=
      List.mem_flatMap.2 ⟨publishStage publish, List.mem_append_right _ List.mem_cons_self,
        List.mem_singleton_self _⟩
    obtain ⟨t, ht, hcontainer⟩ := Graph.exists_found (g := emptyGraph r) rfl hnames hmem
    have hmounts := PublishTask.mounts_of_make_partitions hmake hout
    rw [PublishTask.name_of_make hmake] at ht
    refine ⟨t, PublishTask.pattern r.id (w.commands.length - 1), scratchDir r.id, ht, ?_, ?_, ?_,
      ?_⟩
    · rw [hcontainer]
      exact PublishTask.gathered?_of_make hid hmake
    · intro path hpath
      obtain ⟨part, hname, rfl⟩ := PublishTask.exists_of_isMatch hpath
      rw [hcontainer]
      exact Volume.leadsBelow_name hmounts hscratch hname
    · rw [hcontainer]
      exact PublishTask.cleaned?_of_make hmake hid
    · rw [hcontainer]
      exact Volume.leadsBelow_self hmounts hscratch

end

/-- In the graph of a shell recipe all but the publishing task are inner. -/
theorem targets_of_planned {ss : List Stage} (h : Planned r ss) (hw : r.workflow = .shell w)
    (ht : t ∈ ((emptyGraph r).appendAll ss).tasks) (hname : t.name ≠ PublishTask.name) :
    t.targets = [] := by
  obtain ⟨inner, publish, source, htasks, hinner, hmake⟩ := tasks_of_planned h hw
  obtain ⟨u, hu, huname, hcontainer⟩ := Graph.exists_planned rfl ht
  rw [htasks, List.mem_append, List.mem_singleton] at hu
  rcases hu with hu | rfl
  · rw [Task.targets, ← hcontainer]
    exact (hinner u hu).2
  · exact absurd (huname.symm.trans (PublishTask.name_of_make hmake)) hname

theorem isLocated_of_shell (hg : r.compile = .ok g) (hw : r.workflow = .shell w)
    (hid : Recipe.deriveId r.name = .ok r.id) (hout : r.output = .pvc) : w.IsLocated r.id g := by
  obtain ⟨ss, hplan, rfl⟩ := Recipe.compile_planned hg
  have hothers := fun t => @targets_of_planned r t w ss hplan hw
  cases hplan with
  | @sequential w' items publish hw' hseq _ hmake =>
    obtain rfl : w = w' := Workflow.shell.inj (hw.symm.trans hw')
    have hname := PublishTask.name_of_make hmake
    have hmem : publish ∈ (sequentialStages r w items publish).flatMap Stage.tasks :=
      List.mem_flatMap.2 ⟨publishStage publish, List.mem_append_right _ List.mem_cons_self,
        List.mem_singleton_self _⟩
    refine ⟨exists_published hid hout (nodup_sequential hname) hmem hmake, hothers, ?_, ?_⟩
    · intro _ t ht hne
      obtain ⟨u, hu, huname, hcontainer⟩ := Graph.exists_planned rfl ht
      rw [← hcontainer]
      rcases mem_shellStages hu with rfl | ⟨k, command, hstep⟩ | rfl
      · rfl
      · rw [List.mem_singleton.1 hstep]
        rfl
      · exact absurd (huname.symm.trans hname) hne
    · intro hpar
      cases hpar.symm.trans hseq
  | @partitioned w' items publish hw' hpar _ _ _ hmake =>
    obtain rfl : w = w' := Workflow.shell.inj (hw.symm.trans hw')
    have hname := PublishTask.name_of_make hmake
    have hmem : publish ∈ (partitionedStages r w items publish).flatMap Stage.tasks :=
      List.mem_flatMap.2 ⟨publishStage publish, List.mem_append_right _ List.mem_cons_self,
        List.mem_singleton_self _⟩
    refine ⟨exists_published hid hout (nodup_partitioned hname) hmem hmake, hothers, ?_,
      fun _ => keepsToScratch hid hout hmake⟩
    intro hseq
    cases hpar.symm.trans hseq
  | visualization hv => cases hw.symm.trans hv

end ShellWorkflow

namespace Visualization

theorem isPlain_rootDir (h : Recipe.deriveId name = .ok id) : Shell.IsPlain (rootDir id) :=
  (Shell.isPlain_of_all (by decide)).append (Recipe.isPlain_id h)

/-- The lines of the script that stages the settings, which stand in front of the last. -/
theorem stageConfigScript_lines (root json : String) :
    (stageConfigScript root json).toList =
      (directories.map fun d => root ++ "/" ++ d).flatMap
        (fun d => (Shell.makingLine d).toList ++ ['\n']) ++
        ((Shell.writingLine (root ++ "/" ++ "config.json")).toList ++
          '\n' :: (json.toList ++ '\n' :: endMark.toList)) := by
  have hnext : " && \\\n".toList = " && \\".toList ++ ['\n'] := rfl
  have hcat : " && \\\ncat > ".toList = " && \\".toList ++ ['\n'] ++ "cat > ".toList := rfl
  have hconfig : "/config.json << '".toList =
      "/".toList ++ "config.json".toList ++ " << '".toList := rfl
  have hmark : " << 'EOF'".toList = " << '".toList ++ endMark.toList ++ ['\''] := rfl
  have hquote : "'\n".toList = ['\''] ++ ['\n'] := rfl
  simp only [stageConfigScript, directories, List.map_cons, List.map_nil,
    String.intercalate_cons_cons, String.intercalate_singleton, String.toList_append, hnext, hcat,
    hconfig, hquote, Shell.makingLine, Shell.writingLine, hmark, List.flatMap_cons,
    List.flatMap_nil, List.append_assoc, List.append_nil]
  rfl

theorem isPlain_directories (h : Recipe.deriveId name = .ok id) :
    ∀ d ∈ directories.map fun d => rootDir id ++ "/" ++ d, Shell.IsPlain d := by
  have hroot : Shell.IsPlain (rootDir id ++ "/") :=
    (isPlain_rootDir h).append (Shell.isPlain_of_all (by decide))
  have hall : ∀ d ∈ directories, d.toList.all (!Shell.needsQuotes ·) = true := by decide
  exact List.forall_mem_map.2 fun d hd => hroot.append (Shell.isPlain_of_all (hall d hd))

theorem isPlain_configFile (h : Recipe.deriveId name = .ok id) :
    Shell.IsPlain (rootDir id ++ "/" ++ "config.json") :=
  ((isPlain_rootDir h).append (Shell.isPlain_of_all (by decide))).append
    (Shell.isPlain_of_all (by decide))

theorem split_stageConfigScript (h : Recipe.deriveId name = .ok id) (json : String) :
    Text.split '\n' (stageConfigScript (rootDir id) json).toList =
      (directories.map fun d => rootDir id ++ "/" ++ d).map
          (fun d => (Shell.makingLine d).toList) ++
        (Shell.writingLine (rootDir id ++ "/" ++ "config.json")).toList ::
          Text.split '\n' (json.toList ++ '\n' :: endMark.toList) := by
  rw [stageConfigScript_lines, Shell.split_makingLines (isPlain_directories h),
    Shell.split_line (Shell.newline_notMem_writingLine (isPlain_configFile h))]

/-- The script that stages the settings is read back. -/
theorem staged?_stageConfigScript (h : Recipe.deriveId name = .ok id) (json : String) :
    Shell.staged? (Text.split '\n' (stageConfigScript (rootDir id) json).toList) =
      some (directories.map fun d => rootDir id ++ "/" ++ d,
        rootDir id ++ "/" ++ "config.json") := by
  rw [split_stageConfigScript h,
    Shell.staged?_lines (isPlain_directories h) (isPlain_configFile h)]

section

variable {v : Visualization} {i : Input}

theorem mem_stages (h : u ∈ (v.stages r i).flatMap Stage.tasks) :
    u = stageConfigTask r.id v.configJson ∨
      u = batchingTask r.id (r.image.getD tilingImage) i.value v.batchSize ∨
        u = tilingTask r.id (r.image.getD tilingImage) := by
  simpa [stages] using h

/-- The files and directories that are named below a recipe's own directory. -/
def named : List String :=
  "config.json" :: "input/input.gpkg" :: directories

theorem leadsBelow_named {ms : List Mount} (hid : Recipe.deriveId name = .ok id)
    (hm : c.mounts = ⟨volumeMount, none⟩ :: ms) (hq : q ∈ named) :
    c.LeadsBelow [id] (rootDir id ++ "/" ++ q) := by
  have hparts : ∀ q ∈ named, ∀ part ∈ parts q, part ≠ "." ∧ part ≠ ".." := by decide +kernel
  exact Volume.leadsBelow_append hm (Volume.parts_rootDir hid) (hparts q hq)

theorem inputPath_eq (id : String) : rootDir id ++ "/input/input.gpkg" =
    rootDir id ++ "/" ++ "input/input.gpkg" := by
  have hslash : "/input/input.gpkg" = "/" ++ "input/input.gpkg" := rfl
  rw [hslash, String.append_assoc]

theorem batchDir_eq (id : String) : rootDir id ++ "/batch" = rootDir id ++ "/" ++ "batch" := by
  have hslash : "/batch" = "/" ++ "batch" := rfl
  rw [hslash, String.append_assoc]

theorem configPath_eq (id : String) :
    rootDir id ++ "/config.json" = rootDir id ++ "/" ++ "config.json" := by
  have hslash : "/config.json" = "/" ++ "config.json" := rfl
  rw [hslash, String.append_assoc]

theorem env?_batchingTask (id image url : String) (size : Nat) :
    (batchingTask id image url size).env? "INPUT_PATH" =
        some (rootDir id ++ "/" ++ "input/input.gpkg") ∧
      (batchingTask id image url size).env? "BATCH_DIR" = some (rootDir id ++ "/" ++ "batch") ∧
      (batchingTask id image url size).env? "CONFIG_PATH" = none := by
  have henv : (batchingTask id image url size).container.env =
      Table.ofList [("INPUT_PATH", rootDir id ++ "/input/input.gpkg"),
        ("BATCH_DIR", rootDir id ++ "/batch"), ("BATCH_SIZE", toString size)] := rfl
  simp only [Task.env?, henv, Table.find?_ofList, inputPath_eq, batchDir_eq]
  simp

theorem env?_tilingTask (id image : String) :
    (tilingTask id image).env? "INPUT_PATH" = none ∧
      (tilingTask id image).env? "BATCH_DIR" = none ∧
      (tilingTask id image).env? "CONFIG_PATH" = some (rootDir id ++ "/" ++ "config.json") := by
  have henv : (tilingTask id image).container.env =
      Table.ofList [("CONFIG_PATH", rootDir id ++ "/config.json")] := rfl
  simp only [Task.env?, henv, Table.find?_ofList, configPath_eq]
  simp

/-- What tells a task a path names one below the recipe's own directory. -/
theorem named_of_env (hu : u ∈ (v.stages r i).flatMap Stage.tasks) {key : String}
    (hkey : key ∈ ["INPUT_PATH", "BATCH_DIR", "CONFIG_PATH"]) (hpath : u.env? key = some path) :
    ∃ q ∈ named, path = rootDir r.id ++ "/" ++ q := by
  simp only [List.mem_cons, List.not_mem_nil, or_false] at hkey
  rcases mem_stages hu with rfl | rfl | rfl
  · cases hpath
  · obtain ⟨hinput, hbatch, hconfig⟩ := env?_batchingTask r.id (r.image.getD tilingImage) i.value
      v.batchSize
    rcases hkey with rfl | rfl | rfl
    · exact ⟨_, by decide, (Option.some.inj (hinput.symm.trans hpath)).symm⟩
    · exact ⟨_, by decide, (Option.some.inj (hbatch.symm.trans hpath)).symm⟩
    · cases hconfig.symm.trans hpath
  · obtain ⟨hinput, hbatch, hconfig⟩ := env?_tilingTask r.id (r.image.getD tilingImage)
    rcases hkey with rfl | rfl | rfl
    · cases hinput.symm.trans hpath
    · cases hbatch.symm.trans hpath
    · exact ⟨_, by decide, (Option.some.inj (hconfig.symm.trans hpath)).symm⟩

theorem named_of_artifact (hu : u ∈ (v.stages r i).flatMap Stage.tasks) {a : Artifact}
    (ha : a ∈ u.container.inputArtifacts ++ u.container.outputArtifacts) :
    ∃ q ∈ named, a.path = rootDir r.id ++ "/" ++ q := by
  rcases mem_stages hu with rfl | rfl | rfl
  · cases ha
  · rcases List.mem_pair.1 ha with rfl | rfl
    · exact ⟨_, by decide, inputPath_eq r.id⟩
    · exact ⟨_, by decide, batchDir_eq r.id⟩
  · cases ha

/-- Every variable is set by a task. -/
theorem exists_env {key : String} (hkey : key ∈ ["INPUT_PATH", "BATCH_DIR", "CONFIG_PATH"]) :
    ∃ u ∈ (v.stages r i).flatMap Stage.tasks, (u.env? key).isSome := by
  obtain ⟨hinput, hbatch, -⟩ := env?_batchingTask r.id (r.image.getD tilingImage) i.value
    v.batchSize
  obtain ⟨-, -, hconfig⟩ := env?_tilingTask r.id (r.image.getD tilingImage)
  simp only [List.mem_cons, List.not_mem_nil, or_false] at hkey
  rcases hkey with rfl | rfl | rfl
  · exact ⟨_, by simp [stages], Option.isSome_of_eq_some hinput⟩
  · exact ⟨_, by simp [stages], Option.isSome_of_eq_some hbatch⟩
  · exact ⟨_, by simp [stages], Option.isSome_of_eq_some hconfig⟩

theorem mounts_stages (hu : u ∈ (v.stages r i).flatMap Stage.tasks) :
    u.container.mounts = [⟨volumeMount, none⟩] := by
  rcases mem_stages hu with rfl | rfl | rfl
  · rfl
  · rfl
  · rfl

/-- All that a visualization names is below the recipe's own directory. -/
theorem isLocated_stages (hid : Recipe.deriveId r.name = .ok r.id) :
    IsLocated r.id ((ShellWorkflow.emptyGraph r).appendAll (v.stages r i)) := by
  refine ⟨fun key hkey => ⟨?_, ?_⟩, ?_, ?_⟩
  · obtain ⟨u, hu, hsome⟩ := exists_env (v := v) (r := r) (i := i) hkey
    obtain ⟨t, ht, -, hcontainer⟩ := Graph.exists_wired [] hu
    rw [← @Graph.tasks_appendAll (ShellWorkflow.emptyGraph r) _ rfl] at ht
    refine ⟨t, ht, ?_⟩
    rw [Task.env?, hcontainer]
    exact hsome
  · intro t ht path hpath
    obtain ⟨u, hu, -, hcontainer⟩ := Graph.exists_planned rfl ht
    rw [Task.env?, ← hcontainer] at hpath
    obtain ⟨q, hq, rfl⟩ := named_of_env hu hkey hpath
    rw [← hcontainer]
    exact leadsBelow_named hid (mounts_stages hu) hq
  · intro t ht a ha
    obtain ⟨u, hu, -, hcontainer⟩ := Graph.exists_planned rfl ht
    rw [← hcontainer] at ha ⊢
    obtain ⟨q, hq, hpath⟩ := named_of_artifact hu ha
    rw [hpath]
    exact leadsBelow_named hid (mounts_stages hu) hq
  · have hmem : stageConfigTask r.id v.configJson ∈ (v.stages r i).flatMap Stage.tasks := by
      simp [stages]
    obtain ⟨t, ht, hcontainer⟩ := Graph.exists_found (g := ShellWorkflow.emptyGraph r) rfl
      (nodup_stages r v i) hmem
    refine ⟨t, directories.map fun d => rootDir r.id ++ "/" ++ d,
      rootDir r.id ++ "/" ++ "config.json", ht, ?_, ?_, ?_⟩
    · have hscript : (stageConfigTask r.id v.configJson).container.script? =
          some (stageConfigScript (rootDir r.id) v.configJson) := rfl
      rw [hcontainer, hscript, Option.bind_some, staged?_stageConfigScript hid]
    · rw [hcontainer]
      exact List.forall_mem_map.2 fun d hd => leadsBelow_named hid (mounts_stages hmem)
        (List.mem_cons_of_mem _ (List.mem_cons_of_mem _ hd))
    · rw [hcontainer]
      exact leadsBelow_named hid (mounts_stages hmem) List.mem_cons_self

end

end Visualization

/-- Whatever a recipe with published output compiles to agrees with what looks for its data and
with what clears them. -/
theorem Recipe.isLocated_of_compile (hg : r.compile = .ok g) (hout : r.output = .pvc)
    (hid : deriveId r.name = .ok r.id) : r.IsLocated g := by
  refine ⟨⟨_, Publish.volumeRoot ++ r.id, rfl, Volume.tested?_checkGraph hid,
    Volume.place?_volumeRoot hid rfl⟩, ⟨_, Publish.volumeRoot ++ r.id, rfl,
      (List.cons.inj (Volume.removed?_clearGraph hid)).1, Volume.place?_volumeRoot hid rfl⟩, ?_⟩
  · cases hw : r.workflow with
    | shell w => exact ShellWorkflow.isLocated_of_shell hg hw hid hout
    | visualization v =>
      obtain ⟨ss, hplan, rfl⟩ := Recipe.compile_planned hg
      cases hplan with
      | sequential hw' => cases hw.symm.trans hw'
      | partitioned hw' => cases hw.symm.trans hw'
      | visualization => exact Visualization.isLocated_stages hid

/-- The data of a partitioned recipe, and those of one that tiles a file. -/
theorem Recipe.isLocated_of_compile_each :
    (∃ g, paired.compile = .ok g ∧ paired.output = .pvc ∧
      deriveId paired.name = .ok paired.id ∧ paired.IsLocated g) ∧
    ∃ g, tiled.compile = .ok g ∧ tiled.output = .pvc ∧
      deriveId tiled.name = .ok tiled.id ∧ tiled.IsLocated g := by
  obtain ⟨g, hg⟩ := exists_compile_paired
  obtain ⟨g', hg'⟩ : ∃ g, tiled.compile = .ok g := ⟨_, rfl⟩
  have hid : deriveId paired.name = .ok paired.id := by decide +kernel
  have hid' : deriveId tiled.name = .ok tiled.id := by decide +kernel
  exact ⟨⟨g, hg, rfl, hid, isLocated_of_compile hg rfl hid⟩,
    ⟨g', hg', rfl, hid', isLocated_of_compile hg' rfl hid'⟩⟩

end RecipeFlow
