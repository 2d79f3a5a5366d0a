import RecipeFlow.Compile.Shell
import RecipeFlow.Proofs.Except
import RecipeFlow.Proofs.Partition

/-! The partitions of a command: groups of the inputs' sources, and the items found under them. -/
namespace RecipeFlow

namespace ShellWorkflow

variable {items : List FetchItem} {s : String}

/-- What partitions find under a source: the last item that has it. -/
def found (items : List FetchItem) (s : String) : FetchItem :=
  (items.reverse.find? (·.source = s)).getD default

theorem find?_eq_found (h : s ∈ items.map FetchItem.source) :
    items.reverse.find? (·.source = s) = some (found items s) := by
  obtain ⟨i, hi, hs⟩ := List.mem_map.1 h
  have hsome : (items.reverse.find? (·.source = s)).isSome :=
    List.find?_isSome.2 ⟨i, List.mem_reverse.2 hi, by simpa using hs⟩
  obtain ⟨j, hj⟩ := Option.isSome_iff_exists.1 hsome
  rw [found, hj, Option.getD_some]

theorem itemOf_eq_ok (h : s ∈ items.map FetchItem.source) :
    itemOf items s = .ok (found items s) := by
  rw [itemOf, find?_eq_found h]

/-- The tasks of a command, each with the items found under the sources of a partition. -/
def commandTasks (r : Recipe) (w : ShellWorkflow) (items : List FetchItem) (k : Nat)
    (command : String) : List Task :=
  (Partition.chunks (Partition.clamp w.parallel.effectiveSize) items.length
    (items.map FetchItem.source)).mapIdx fun p sources =>
      fileTask r ⟨r.id, k, p⟩ (sources.map (found items)) command

theorem partitionTasks_eq_ok {r : Recipe} {w : ShellWorkflow} (h : items ≠ []) (k : Nat)
    (command : String) :
    partitionTasks r w items k command = .ok (commandTasks r w items k command) := by
  have hplan : Partition.plan (items.map FetchItem.source) w.parallel.effectiveSize
      (commandStageName k) = .ok ((Partition.chunks (Partition.clamp w.parallel.effectiveSize)
        items.length (items.map FetchItem.source)).mapIdx
          (Partition.ofChunk (commandStageName k))) := by
    simp [Partition.plan, h]
  rw [partitionTasks, hplan]
  show List.mapM _ _ = _
  rw [mapM_eq_ok (g := fun p => fileTask r ⟨r.id, k, p.number⟩ (p.files.map (found items))
    command)]
  · congr 1
    apply List.ext_getElem
    · simp [commandTasks]
    · simp [commandTasks, Partition.ofChunk]
  · intro p hp
    obtain ⟨n, hn, rfl⟩ := List.mem_mapIdx.1 hp
    have hfiles : ∀ s ∈ (Partition.chunks (Partition.clamp w.parallel.effectiveSize) items.length
        (items.map FetchItem.source))[n], itemOf items s = .ok (found items s) := by
      intro s hs
      have hsource := Partition.mem_of_mem_chunks (List.getElem_mem hn) s hs
      exact itemOf_eq_ok hsource
    rw [partitionTask, Partition.ofChunk, mapM_eq_ok hfiles]
    rfl

theorem partitionTasks_nil {r : Recipe} {w : ShellWorkflow} (k : Nat) (command : String)
    (ts : List Task) : partitionTasks r w [] k command ≠ .ok ts :=
  nofun

end ShellWorkflow

end RecipeFlow
