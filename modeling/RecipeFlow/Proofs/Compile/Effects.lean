import RecipeFlow.Engine.Simulated
import RecipeFlow.Proofs.Compile.Links

/-! What an engine reads off the graph of a shell recipe: it clears nothing, and it publishes to the
recipe's own directory or to none. -/
namespace RecipeFlow

variable {r : Recipe} {w : ShellWorkflow} {items : List FetchItem} {g : Graph} {publish t : Task}

/-- The directories of the shared volume that a task publishes to. -/
def Task.targets (t : Task) : List String :=
  t.container.mounts.filterMap Mount.subPath

/-- A task that has nothing to do with what is published. -/
def Task.IsInner (t : Task) : Prop :=
  t.name ≠ Publish.clearName ∧ t.targets = []

theorem ne_clearName {n : String} {x : Char} (h : n.toList.head? = some x) (hx : x ≠ 'r') :
    n ≠ Publish.clearName := by
  rintro rfl
  exact hx (Option.some.inj h).symm

theorem PublishTask.targets_of_make {source : PublishSource} (h : make r source = .ok publish) :
    publish.targets = if r.output = .pvc then [r.id] else [] := by
  obtain ⟨text, htext, hp⟩ := bind_eq_ok.1 h
  cases hp
  cases hout : r.output with
  | pvc => cases source <;> rfl
  | temporary => cases source <;> rfl
  | dataone =>
    rw [hout] at htext
    cases htext

namespace ShellWorkflow

theorem isInner_fetchTask (items : List FetchItem) : (fetchTask items).IsInner :=
  ⟨show fetchName ≠ _ by decide, rfl⟩

theorem isInner_stagingTask (r : Recipe) (items : List FetchItem) : (stagingTask r items).IsInner :=
  ⟨show fetchName ≠ _ by decide, rfl⟩

theorem isInner_stepTask (r : Recipe) (k : Nat) (command : String) :
    (stepTask r k command).IsInner :=
  ⟨ne_clearName (head_stepName k) (by decide), rfl⟩

theorem isInner_of_mem_commandTasks {k : Nat} {command : String}
    (h : t ∈ commandTasks r w items k command) : t.IsInner := by
  obtain ⟨p, files, rfl⟩ := mem_commandTasks h
  exact ⟨ne_clearName (head_partitionName k p) (by decide), rfl⟩

theorem tasks_shellStages {fetch : Task} {stage : Nat → String → Stage} {commands : List String}
    (hfetch : fetch.IsInner) (hstage : ∀ k command, ∀ t ∈ (stage k command).tasks, t.IsInner) :
    ∃ inner, (shellStages fetch stage commands publish).flatMap Stage.tasks = inner ++ [publish] ∧
      ∀ t ∈ inner, t.IsInner := by
  refine ⟨fetch :: (commands.zipIdx.map fun x => stage x.2 x.1).flatMap Stage.tasks,
    by simp [shellStages, publishStage], List.forall_mem_cons.2 ⟨hfetch, ?_⟩⟩
  intro t ht
  obtain ⟨s, hs, ht⟩ := List.mem_flatMap.1 ht
  obtain ⟨⟨command, k⟩, -, rfl⟩ := List.mem_map.1 hs
  exact hstage k command t ht

/-- Of a shell recipe's tasks all but the publishing one are inner. -/
theorem tasks_of_planned {ss : List Stage} (h : Planned r ss) (hw : r.workflow = .shell w) :
    ∃ inner publish source, ss.flatMap Stage.tasks = inner ++ [publish] ∧
      (∀ t ∈ inner, t.IsInner) ∧ PublishTask.make r source = .ok publish := by
  cases h with
  | @sequential w items publish _ _ _ hpublish =>
    have hsteps : ∀ k command, ∀ t ∈ (stepStage r k command).tasks, t.IsInner := by
      intro k command t ht
      obtain rfl := List.mem_singleton.1 ht
      exact isInner_stepTask r k command
    obtain ⟨inner, htasks, hinner⟩ := tasks_shellStages (isInner_fetchTask items) hsteps
    exact ⟨inner, publish, _, htasks, hinner, hpublish⟩
  | @partitioned w items publish _ _ _ _ _ hpublish =>
    have hcommands : ∀ k command, ∀ t ∈ (commandStage r w items k command).tasks, t.IsInner :=
      fun k command t ht => isInner_of_mem_commandTasks ht
    obtain ⟨inner, htasks, hinner⟩ := tasks_shellStages (isInner_stagingTask r items) hcommands
    exact ⟨inner, publish, _, htasks, hinner, hpublish⟩
  | visualization hv => cases hw.symm.trans hv

end ShellWorkflow

namespace SimulatedEngine

/-- The graph of a shell recipe publishes to the recipe's own directory, if to any. -/
theorem published_of_compile (h : r.compile = .ok g) (hw : r.workflow = .shell w) :
    published g = if r.output = .pvc then [r.id] else [] := by
  obtain ⟨ss, hss, rfl⟩ := Recipe.compile_planned h
  obtain ⟨inner, publish, source, htasks, hinner, hpublish⟩ :=
    ShellWorkflow.tasks_of_planned hss hw
  have hnone : inner.flatMap Task.targets = [] :=
    List.flatMap_eq_nil_iff.2 fun t ht => (hinner t ht).2
  calc published ((ShellWorkflow.emptyGraph r).appendAll ss)
      = (((ShellWorkflow.emptyGraph r).appendAll ss).tasks.map Task.targets).flatten :=
        List.flatMap_def
    _ = ((inner ++ [publish]).map Task.targets).flatten := by
        rw [Graph.tasks_appendAll rfl, Graph.map_flatMap_wire Task.targets fun _ _ => rfl, htasks]
    _ = publish.targets := by
        rw [← List.flatMap_def, List.flatMap_append, hnone]
        exact List.append_nil _
    _ = _ := PublishTask.targets_of_make hpublish

/-- The graph of a shell recipe clears nothing. -/
theorem task?_clearName_of_compile (h : r.compile = .ok g) (hw : r.workflow = .shell w) :
    g.task? Publish.clearName = none := by
  obtain ⟨ss, hss, rfl⟩ := Recipe.compile_planned h
  obtain ⟨inner, publish, source, htasks, hinner, hpublish⟩ :=
    ShellWorkflow.tasks_of_planned hss hw
  have hnames : ((ShellWorkflow.emptyGraph r).appendAll ss).tasks.map Task.name =
      (inner ++ [publish]).map Task.name := by
    rw [Graph.names_appendAll rfl, htasks]
  refine List.find?_eq_none.2 fun t ht => ?_
  have hmem : t.name ∈ (inner ++ [publish]).map Task.name := hnames ▸ List.mem_map_of_mem ht
  rw [List.map_append, List.mem_append, List.mem_map] at hmem
  rcases hmem with ⟨u, hu, hname⟩ | hmem
  · simpa [← hname] using (hinner u hu).1
  · obtain hname := List.mem_singleton.1 hmem
    rw [hname, PublishTask.name_of_make hpublish]
    decide

end SimulatedEngine

end RecipeFlow
