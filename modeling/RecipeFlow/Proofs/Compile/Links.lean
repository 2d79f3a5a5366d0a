import Mathlib.Data.List.Nodup
import RecipeFlow.Proofs.Compile.Names
import RecipeFlow.Proofs.Compile.Pipeline
import RecipeFlow.Proofs.Graph.Links
import RecipeFlow.Proofs.Table

/-! What the tasks of a compiled recipe hand on: they are linked, for each kind of workflow. -/
namespace RecipeFlow

open RecipeFlow.Graph

variable {r : Recipe} {w : ShellWorkflow} {items : List FetchItem} {t publish : Task}
  {ps : List Task} {k : Nat} {n : String} {commands : List String}

/-- A task that takes nothing from others is sound if what it declares is apart. -/
theorem Task.isSound_of_none (hplain : '.' ∉ t.name.toList) (hapart : t.name ≠ "main")
    (hinputs : t.container.inputArtifacts.filter (·.url.isNone) = []) (hc : t.consumes = none)
    (henv : (t.container.env.map Prod.fst ++ (t.fanOut.map FanOut.itemEnv).toList).Nodup)
    (hmounts : (t.container.mounts.map Mount.path).Nodup) : t.IsSound where
  plain := hplain
  apart := hapart
  supplied := by
    rw [hinputs, hc]
    rfl
  closing c h := by cases hc.symm.trans h
  env := henv
  mounts := hmounts

theorem ne_main {c : Char} (h : n.toList.head? = some c) (hc : c ≠ 'm') : n ≠ "main" := by
  rintro rfl
  exact hc (Option.some.inj h).symm

theorem brace_notMem_outputArtifact : '\x7d' ∉ outputArtifact.name.toList := by
  decide

namespace PublishTask

theorem isSound_of_make {source : PublishSource} (h : make r source = .ok publish) :
    publish.IsSound := by
  obtain ⟨text, -, hp⟩ := bind_eq_ok.1 h
  cases hp
  have hplain : '.' ∉ name.toList := by decide
  have hapart : name ≠ "main" := by decide
  cases source with
  | task n =>
    refine ⟨hplain, hapart, ?_, ?_, ?_, ?_⟩
    · cases r.output <;> rfl
    · intro c hc
      cases hc
      exact brace_notMem_outputArtifact
    · cases r.output <;> exact List.nodup_nil
    · cases r.output with
      | temporary => exact List.nodup_nil
      | pvc | dataone => exact List.nodup_singleton _
  | partitions k =>
    have hpaths : [volumeMount, outputDir].Nodup := by decide
    refine Task.isSound_of_none hplain hapart ?_ rfl ?_ ?_
    · cases r.output <;> rfl
    · cases r.output <;> exact List.nodup_nil
    · cases r.output with
      | temporary => exact List.nodup_singleton _
      | pvc | dataone => exact hpaths

theorem name_of_make {source : PublishSource} (h : make r source = .ok publish) :
    publish.name = name := by
  obtain ⟨text, -, hp⟩ := bind_eq_ok.1 h
  cases hp
  cases source <;> rfl

/-- Publishing takes the output of the task that it names. -/
theorem fedBy_of_make {u : Task} (h : make r (.task u.name) = .ok publish) (hu : u ∈ ps)
    (hout : outputArtifact.name ∈ u.container.outputArtifacts.map Artifact.name) :
    publish.FedBy ps := by
  obtain ⟨text, -, hp⟩ := bind_eq_ok.1 h
  cases hp
  constructor
  · intro c hc
    cases hc
    exact ⟨u, hu, rfl, hout⟩
  · intro f hf
    cases hf

theorem fedBy_of_make_partitions (h : make r (.partitions k) = .ok publish) :
    publish.FedBy ps := by
  obtain ⟨text, -, hp⟩ := bind_eq_ok.1 h
  cases hp
  exact Task.fedBy_of_none rfl rfl

end PublishTask

namespace ShellWorkflow

theorem isSound_stepTask (r : Recipe) (k : Nat) (command : String) :
    (stepTask r k command).IsSound where
  plain := dot_notMem_stepName k
  apart := ne_main (head_stepName k) (by decide)
  supplied := rfl
  closing c hc := by
    cases hc
    exact brace_notMem_outputArtifact
  env := by
    have henv := (Table.ascending_ofList [("INPUT_DIR", inputDir), ("OUTPUT_DIR", outputDir)]).nodup
    simpa [stepTask] using henv
  mounts := List.nodup_nil

theorem isSound_fetchTask (items : List FetchItem) : (fetchTask items).IsSound :=
  Task.isSound_of_none (show '.' ∉ fetchName.toList by decide) (show fetchName ≠ "main" by decide)
    rfl rfl List.nodup_nil List.nodup_nil

theorem isSound_stagingTask (r : Recipe) (items : List FetchItem) :
    (stagingTask r items).IsSound :=
  Task.isSound_of_none (show '.' ∉ fetchName.toList by decide) (show fetchName ≠ "main" by decide)
    rfl rfl List.nodup_nil (List.nodup_singleton _)

theorem isSound_fileTask (r : Recipe) (a : PartitionAddress) (files : List FetchItem)
    (command : String) : (fileTask r a files command).IsSound := by
  refine Task.isSound_of_none (dot_notMem_partitionName _ _)
    (ne_main (head_partitionName _ _) (by decide)) rfl rfl ?_ (List.nodup_singleton _)
  show ((Table.ofList _).map Prod.fst ++ []).Nodup
  rw [List.append_nil]
  exact (Table.ascending_ofList _).nodup

theorem mem_commandTasks {command : String} (h : t ∈ commandTasks r w items k command) :
    ∃ p files, t = fileTask r ⟨r.id, k, p⟩ files command := by
  obtain ⟨p, _, rfl⟩ := List.mem_mapIdx.1 h
  exact ⟨p, _, rfl⟩

theorem isSound_of_mem_shellStages {fetch : Task} {stage : Nat → String → Stage}
    (hf : fetch.IsSound) (hs : ∀ k command, ∀ t ∈ (stage k command).tasks, t.IsSound)
    (hp : publish.IsSound)
    (h : t ∈ (shellStages fetch stage commands publish).flatMap Stage.tasks) : t.IsSound := by
  obtain ⟨s, hmem, ht⟩ := List.mem_flatMap.1 h
  rw [shellStages, List.mem_append, List.mem_cons, List.mem_map, List.mem_singleton] at hmem
  rcases hmem with (rfl | ⟨⟨command, k⟩, -, rfl⟩) | rfl
  · obtain rfl := List.mem_singleton.1 ht
    exact hf
  · exact hs k command t ht
  · obtain rfl := List.mem_singleton.1 ht
    exact hp

/-- Each step is fed by the task before it, and publishing by the last. -/
theorem fed_steps {u : Task} (hu : u.name = previousName k)
    (hout : outputArtifact.name ∈ u.container.outputArtifacts.map Artifact.name)
    (hp : PublishTask.make r (.task (previousName (k + commands.length))) = .ok publish) :
    Fed [u] ((commands.zipIdx k).map (fun (command, k) => stepStage r k command) ++
      [publishStage publish]) := by
  induction commands generalizing k u with
  | nil =>
    rw [List.length_nil, Nat.add_zero, ← hu] at hp
    refine ⟨?_, trivial⟩
    intro t ht
    obtain rfl := List.mem_singleton.1 ht
    exact PublishTask.fedBy_of_make hp List.mem_cons_self hout
  | cons command commands ih =>
    rw [List.length_cons, Nat.add_comm commands.length 1, ← Nat.add_assoc] at hp
    refine ⟨?_, ih rfl (List.mem_singleton_self _) hp⟩
    intro t ht
    obtain rfl := List.mem_singleton.1 ht
    constructor
    · intro c hc
      cases hc
      exact ⟨u, List.mem_cons_self, hu, hout⟩
    · intro f hf
      cases hf

/-- Partitions hand nothing on but what is on the shared volume. -/
theorem fed_commands (hp : ∀ qs, publish.FedBy qs) :
    Fed ps ((commands.zipIdx k).map (fun (command, k) => commandStage r w items k command) ++
      [publishStage publish]) := by
  induction commands generalizing k ps with
  | nil =>
    refine ⟨?_, trivial⟩
    intro t ht
    obtain rfl := List.mem_singleton.1 ht
    exact hp ps
  | cons command commands ih =>
    refine ⟨?_, ih⟩
    intro t ht
    obtain ⟨p, files, rfl⟩ := mem_commandTasks ht
    exact Task.fedBy_of_none rfl rfl

theorem nodup_ends {x y : String} {zs : List String} (hz : zs.Nodup) (hx : x ∉ zs) (hy : y ∉ zs)
    (hxy : x ≠ y) : (x :: zs ++ [y]).Nodup := by
  rw [List.cons_append, List.nodup_cons, List.mem_append, List.mem_singleton, not_or]
  refine ⟨⟨hx, hxy⟩, List.nodup_append.2 ⟨hz, List.nodup_singleton y, ?_⟩⟩
  rintro z hz' y' hy' rfl
  rw [List.mem_singleton.1 hy'] at hz'
  exact hy hz'

theorem names_shellStages {fetch : Task} {stage : Nat → String → Stage}
    {names : Nat → List String}
    (hstage : ∀ k command, (stage k command).tasks.map Task.name = names k) :
    ((shellStages fetch stage commands publish).flatMap Stage.tasks).map Task.name =
      fetch.name :: (List.range' 0 commands.length).flatMap names ++ [publish.name] := by
  have hcommands : ((commands.zipIdx.map fun (command, k) => stage k command).flatMap
      Stage.tasks).map Task.name = (commands.zipIdx.map Prod.snd).flatMap names := by
    induction commands.zipIdx with
    | nil => rfl
    | cons p ps ih =>
      rw [List.map_cons, List.flatMap_cons, List.map_append, ih, List.map_cons, List.flatMap_cons,
        hstage]
  rw [List.zipIdx_map_snd] at hcommands
  rw [shellStages, List.cons_append, List.flatMap_cons, List.flatMap_append, List.map_append,
    List.map_append, hcommands]
  rfl

/-- The names are apart if those of the commands are, and start with a letter of their own. -/
theorem nodup_shellStages {fetch : Task} {stage : Nat → String → Stage}
    {names : Nat → List String} {c : Char} (hfetch : fetch.name = fetchName)
    (hpublish : publish.name = PublishTask.name)
    (hstage : ∀ k command, (stage k command).tasks.map Task.name = names k)
    (hnodup : ∀ k, (names k).Nodup) (hapart : ∀ k k', k ≠ k' → (names k).Disjoint (names k'))
    (hhead : ∀ k, ∀ n ∈ names k, n.toList.head? = some c) (hc : c ≠ 'f' ∧ c ≠ 'p') :
    (((shellStages fetch stage commands publish).flatMap Stage.tasks).map Task.name).Nodup := by
  have hmem : ∀ n ∈ (List.range' 0 commands.length).flatMap names, n.toList.head? = some c := by
    intro n hn
    obtain ⟨k, -, hk⟩ := List.mem_flatMap.1 hn
    exact hhead k n hk
  have hcommands : ((List.range' 0 commands.length).flatMap names).Nodup := by
    refine List.nodup_flatMap.2 ⟨fun k _ => hnodup k, ?_⟩
    exact List.Pairwise.imp (fun hne => hapart _ _ hne) List.nodup_range'
  rw [names_shellStages hstage, hfetch, hpublish]
  refine nodup_ends hcommands ?_ ?_ (by decide)
  · intro h
    exact hc.1 (Option.some.inj (hmem _ h)).symm
  · intro h
    exact hc.2 (Option.some.inj (hmem _ h)).symm

theorem nodup_sequential (hpublish : publish.name = PublishTask.name) :
    (((sequentialStages r w items publish).flatMap Stage.tasks).map Task.name).Nodup := by
  refine nodup_shellStages (c := 's') rfl hpublish (fun _ _ => rfl)
    (fun k => List.nodup_singleton _) ?_ ?_ (by decide)
  · intro k k' hne n hk hk'
    rw [List.mem_singleton] at hk hk'
    exact hne (stepName_inj (hk.symm.trans hk'))
  · intro k n hn
    rw [List.mem_singleton.1 hn]
    exact head_stepName k

/-- How many tasks each command has. -/
def width (w : ShellWorkflow) (items : List FetchItem) : Nat :=
  (Partition.chunks (Partition.clamp w.parallel.effectiveSize) items.length
    (items.map FetchItem.source)).length

theorem names_commandTasks (k : Nat) (command : String) :
    (commandTasks r w items k command).map Task.name =
      (List.range (width w items)).map (partitionName k) := by
  apply List.ext_getElem
  · simp [commandTasks, width]
  · intro i h₁ h₂
    simp [commandTasks, fileTask, PartitionAddress.taskName]

theorem nodup_partitioned (hpublish : publish.name = PublishTask.name) :
    (((partitionedStages r w items publish).flatMap Stage.tasks).map Task.name).Nodup := by
  refine nodup_shellStages (c := 'c') rfl hpublish names_commandTasks ?_ ?_ ?_ (by decide)
  · intro k
    exact List.Nodup.map (fun _ _ h => (partitionName_inj h).2) List.nodup_range
  · intro k k' hne n hk hk'
    obtain ⟨p, -, rfl⟩ := List.mem_map.1 hk
    obtain ⟨p', -, hp'⟩ := List.mem_map.1 hk'
    exact hne (partitionName_inj hp').1.symm
  · intro k n hn
    obtain ⟨p, -, rfl⟩ := List.mem_map.1 hn
    exact head_partitionName k p

end ShellWorkflow

namespace Visualization

theorem isSound_of_mem_stages {v : Visualization} {i : Input}
    (h : t ∈ (v.stages r i).flatMap Stage.tasks) : t.IsSound := by
  have hmount : [volumeMount].Nodup := List.nodup_singleton _
  simp only [stages, List.flatMap_cons, List.flatMap_nil, List.append_nil, List.cons_append,
    List.nil_append, List.mem_cons, List.not_mem_nil, or_false] at h
  rcases h with rfl | rfl | rfl
  · exact Task.isSound_of_none (show '.' ∉ stageConfigName.toList by decide)
      (show stageConfigName ≠ "main" by decide) rfl rfl List.nodup_nil hmount
  · refine Task.isSound_of_none (show '.' ∉ batchingName.toList by decide)
      (show batchingName ≠ "main" by decide) rfl rfl ?_ hmount
    show ((Table.ofList _).map Prod.fst ++ []).Nodup
    rw [List.append_nil]
    exact (Table.ascending_ofList _).nodup
  · exact Task.isSound_of_none (show '.' ∉ tilingName.toList by decide)
      (show tilingName ≠ "main" by decide) rfl rfl
      (show ["CONFIG_PATH", "CHUNK_FILEPATH"].Nodup by decide) hmount

theorem nodup_stages (r : Recipe) (v : Visualization) (i : Input) :
    (((v.stages r i).flatMap Stage.tasks).map Task.name).Nodup :=
  show [stageConfigName, batchingName, tilingName].Nodup by decide

theorem fed_stages (r : Recipe) (v : Visualization) (i : Input) : Fed [] (v.stages r i) := by
  refine ⟨?_, ?_, trivial⟩
  · intro t ht
    rcases List.mem_pair.1 ht with rfl | rfl
    · exact Task.fedBy_of_none rfl rfl
    · exact Task.fedBy_of_none rfl rfl
  · intro t ht
    obtain rfl := List.mem_singleton.1 ht
    constructor
    · intro c hc
      cases hc
    · intro f hf
      cases hf
      exact List.mem_cons_of_mem _ List.mem_cons_self

end Visualization

/-- The tasks of a compiled recipe are linked among themselves. -/
theorem Recipe.isLinked_of_compile {g : Graph} (h : r.compile = .ok g) : IsLinked g.tasks := by
  obtain ⟨ss, hplan, rfl⟩ := compile_planned h
  rw [tasks_appendAll rfl]
  cases hplan with
  | @sequential w items publish _ _ _ hpublish =>
    refine isLinked_wire ⟨fun t ht => ?_, ?_⟩ (fun t ht => ?_)
      (ShellWorkflow.nodup_sequential (PublishTask.name_of_make hpublish))
    · obtain rfl := List.mem_singleton.1 ht
      exact Task.fedBy_of_none rfl rfl
    · rw [← Nat.zero_add w.commands.length] at hpublish
      exact ShellWorkflow.fed_steps rfl (List.mem_singleton_self _) hpublish
    · refine ShellWorkflow.isSound_of_mem_shellStages (ShellWorkflow.isSound_fetchTask items)
        (fun k command t ht => ?_) (PublishTask.isSound_of_make hpublish) ht
      obtain rfl := List.mem_singleton.1 ht
      exact ShellWorkflow.isSound_stepTask r k command
  | @partitioned w items publish _ _ _ _ _ hpublish =>
    refine isLinked_wire ⟨fun t ht => ?_, ?_⟩ (fun t ht => ?_)
      (ShellWorkflow.nodup_partitioned (PublishTask.name_of_make hpublish))
    · obtain rfl := List.mem_singleton.1 ht
      exact Task.fedBy_of_none rfl rfl
    · exact ShellWorkflow.fed_commands fun qs => PublishTask.fedBy_of_make_partitions hpublish
    · refine ShellWorkflow.isSound_of_mem_shellStages (ShellWorkflow.isSound_stagingTask r items)
        (fun k command t ht => ?_) (PublishTask.isSound_of_make hpublish) ht
      obtain ⟨p, files, rfl⟩ := ShellWorkflow.mem_commandTasks ht
      exact ShellWorkflow.isSound_fileTask r _ files command
  | @visualization v i =>
    exact isLinked_wire (Visualization.fed_stages r v i)
      (fun t ht => Visualization.isSound_of_mem_stages ht) (Visualization.nodup_stages r v i)

/-- A compiled recipe uses the shared volume just where some task mounts it. -/
theorem Recipe.usesVolume_of_compile {g : Graph} (h : r.compile = .ok g) :
    g.usesVolume = g.tasks.any fun t => !t.container.mounts.isEmpty := by
  obtain ⟨ss, -, rfl⟩ := compile_planned h
  have hmap : ((wire [] ss).flatMap Stage.tasks).map (fun t => !t.container.mounts.isEmpty) =
      (ss.flatMap Stage.tasks).map fun t => !t.container.mounts.isEmpty :=
    map_flatMap_wire _ fun _ _ => rfl
  have hany := congrArg (List.any · fun b => b) hmap
  simp only [List.any_map] at hany
  rw [usesVolume_appendAll, tasks_appendAll rfl]
  exact (Bool.false_or _).trans hany.symm

end RecipeFlow
