import RecipeFlow.Proofs.Compile.Links
import RecipeFlow.Proofs.Graph.Pipeline

/-! Compiled recipes as pipelines: which stages they have, and what is run in them. -/
namespace RecipeFlow

namespace ShellWorkflow

variable {r : Recipe} {w : ShellWorkflow} {items : List FetchItem} {fetch publish t : Task}
  {stage : Nat → String → Stage} {names : Nat → List String} {commands : List String}
  {command : String} {k : Nat}

theorem clamp_effectiveSize (p : Parallel) :
    Partition.clamp p.effectiveSize = p.effectiveSize := by
  have hpos : 1 ≤ p.effectiveSize := by
    unfold Parallel.effectiveSize
    split
    · omega
    · exact Nat.le_refl 1
  unfold Partition.clamp
  omega

/-- A partitioned command has a task for each group that its files fall into. -/
theorem width_eq : width w items = items.length ⌈/⌉ w.parallel.effectiveSize := by
  have hsize := Partition.one_le_clamp w.parallel.effectiveSize
  rw [width, Partition.length_chunks hsize (Nat.le_of_eq (List.length_map _)), List.length_map,
    clamp_effectiveSize]

/-- A task that runs a command, alone or for some files of a partition. -/
def RunsCommand (w : ShellWorkflow) (r : Recipe) (k : Nat) (command : String) (t : Task) : Prop :=
  if w.parallel.enabled then
    ∃ p files, files ≠ [] ∧ t.name = partitionName k p ∧ t.container.script? =
      some (partitionScript ⟨r.id, k, p⟩ files (inputsDir r.id) command)
  else t.container.script? = some ("mkdir -p " ++ outputDir ++ " && " ++ command)

/-- A stage is that of fetching, that of a command, or that of publishing, in this order. -/
theorem shellStages_cases {s : Stage} {n : Nat}
    (h : (shellStages fetch stage commands publish)[n]? = some s) :
    (n = 0 ∧ s = ⟨"fetch", .fetch, [fetch]⟩) ∨
      (∃ k command, n = k + 1 ∧ commands[k]? = some command ∧ s = stage k command) ∨
      (n = commands.length + 1 ∧ s = publishStage publish) := by
  cases n with
  | zero => exact .inl ⟨rfl, (Option.some.inj h).symm⟩
  | succ n =>
    rw [shellStages, List.cons_append, List.getElem?_cons_succ, List.getElem?_append] at h
    simp only [List.length_map, List.length_zipIdx] at h
    split at h
    · rw [List.getElem?_map, List.getElem?_zipIdx] at h
      cases hcommand : commands[n]? with
      | none => simp [hcommand] at h
      | some command =>
        have hs : s = stage n command := by simpa [hcommand] using h.symm
        exact .inr (.inl ⟨n, command, rfl, hcommand, hs⟩)
    · obtain ⟨hn, hs⟩ := List.getElem?_eq_some_iff.1 h
      rw [List.length_singleton] at hn
      refine .inr (.inr ⟨by omega, ?_⟩)
      rw [← hs]
      exact List.getElem_singleton _

/-- The stage of a command stands behind that of fetching and those of the commands before. -/
theorem getElem?_shellStages (h : commands[k]? = some command) :
    (shellStages fetch stage commands publish)[k + 1]? = some (stage k command) := by
  have hk : k < commands.length := (List.getElem?_eq_some_iff.1 h).1
  rw [shellStages, List.cons_append, List.getElem?_cons_succ, List.getElem?_append_left
    (by simpa using hk), List.getElem?_map, List.getElem?_zipIdx, h]
  simp

/-- A processing stage is that of a command, behind some tasks. -/
theorem shellStage_of_kind {s : Stage} (hkind : ∀ k command, (stage k command).kind = .process k)
    (hs : s ∈ ((emptyGraph r).appendAll (shellStages fetch stage commands publish)).stages)
    (hk : s.kind = .process k) : ∃ command ds, commands[k]? = some command ∧
      s = Graph.behind ds (stage k command) := by
  obtain ⟨n, hn⟩ := List.mem_iff_getElem?.1 hs
  rw [Graph.stages_appendAll] at hn
  obtain ⟨ds, hwire⟩ := Graph.getElem?_wire (emptyGraph r).lastNames
    (shellStages fetch stage commands publish) n
  obtain ⟨s₀, hs₀, rfl⟩ := Option.map_eq_some_iff.1 (hwire.symm.trans hn)
  rcases shellStages_cases hs₀ with ⟨-, rfl⟩ | ⟨k', command, -, hcommand, rfl⟩ | ⟨-, rfl⟩
  · cases hk
  · obtain rfl : k' = k := StageKind.process.inj ((hkind k' command).symm.trans hk)
    exact ⟨command, ds, hcommand, rfl⟩
  · cases hk

/-- A processing stage of a partitioned recipe is that of a command, behind some tasks. -/
theorem stage_of_kind {s : Stage}
    (hs : s ∈ ((emptyGraph r).appendAll (partitionedStages r w items publish)).stages)
    (hk : s.kind = .process k) : ∃ command ds, w.commands[k]? = some command ∧
      s = Graph.behind ds (commandStage r w items k command) :=
  shellStage_of_kind (fun _ _ => rfl) hs hk

/-- The stage of each command is among those of the graph, behind some tasks. -/
theorem exists_shellStage (h : commands[k]? = some command) : ∃ ds,
    Graph.behind ds (stage k command) ∈
      ((emptyGraph r).appendAll (shellStages fetch stage commands publish)).stages := by
  obtain ⟨ds, hwire⟩ := Graph.getElem?_wire (emptyGraph r).lastNames
    (shellStages fetch stage commands publish) (k + 1)
  rw [getElem?_shellStages h] at hwire
  rw [Graph.stages_appendAll]
  exact ⟨ds, List.mem_of_getElem? hwire⟩

theorem runsCommand_stepTask (h : w.parallel.enabled = false) :
    w.RunsCommand r k command (stepTask r k command) := by
  rw [RunsCommand, h]
  rfl

theorem runsCommand_commandTasks (h : w.parallel.enabled = true)
    (ht : t ∈ commandTasks r w items k command) : w.RunsCommand r k command t := by
  obtain ⟨p, hp, rfl⟩ := List.mem_mapIdx.1 ht
  rw [RunsCommand, if_pos h]
  refine ⟨p, _, ?_, rfl, rfl⟩
  simpa using Partition.ne_nil_of_mem_chunks (Partition.one_le_clamp _) (List.getElem_mem hp)

end ShellWorkflow

namespace Recipe

variable {r : Recipe} {g : Graph}

open ShellWorkflow Visualization

/-- A recipe of two commands on three mounted files, two of them to a partition. -/
def paired : Recipe where
  name := "P 1"
  id := "p-1"
  image := none
  inputs := [⟨.pvcMount, "/data/a", none, []⟩, ⟨.pvcMount, "/data/b", none, []⟩,
    ⟨.pvcMount, "/data/c", none, []⟩]
  output := .pvc
  workflow := .shell ⟨"d/recipe.sh", ["gzip $INPUT_FILE", "wc $INPUT_FILE"], ⟨true, some 2⟩⟩
  directory := "d"

theorem exists_compile_paired : ∃ g, paired.compile = .ok g := by
  have hok : paired.compile.toOption.isSome := by decide +kernel
  cases hg : paired.compile with
  | error f => simp [hg, Except.toOption] at hok
  | ok g => exact ⟨g, rfl⟩

end Recipe

end RecipeFlow
