import Mathlib.Data.List.Nodup
import RecipeFlow.Proofs.Compile.Pipeline
import RecipeFlow.Proofs.Compile.Script

/-! Which items a partitioned first command is run on: each one, if their sources are apart. -/
namespace RecipeFlow

namespace FetchItem

variable {items seen : List FetchItem}

theorem clashFrom?_eq_none : clashFrom? seen items = none ↔
    (items.map filename).Nodup ∧ ∀ i ∈ items, ∀ j ∈ seen, j.filename ≠ i.filename := by
  induction items generalizing seen with
  | nil => simp [clashFrom?]
  | cons i items ih =>
    rw [clashFrom?]
    cases hfind : seen.find? (·.filename = i.filename) with
    | some j =>
      have hj : j ∈ seen := List.mem_of_find?_eq_some hfind
      have hname : j.filename = i.filename := by simpa using List.find?_some hfind
      simp only [reduceCtorEq, false_iff]
      rintro ⟨-, hall⟩
      exact hall i List.mem_cons_self j hj hname
    | none =>
      have hi : ∀ j ∈ seen, j.filename ≠ i.filename := by
        simpa [List.find?_eq_none] using hfind
      simp only [ih, List.map_cons, List.nodup_cons, List.mem_map, not_exists, not_and,
        List.forall_mem_cons]
      constructor
      · rintro ⟨hnodup, hall⟩
        exact ⟨⟨fun j hj h => (hall j hj).1 h.symm, hnodup⟩, hi, fun j hj => (hall j hj).2⟩
      · rintro ⟨⟨hnot, hnodup⟩, -, hall⟩
        exact ⟨hnodup, fun j hj => ⟨fun h => hnot j hj h.symm, hall j hj⟩⟩

/-- Items that pass the check have names of their own. -/
theorem nodup_filename (h : checkDistinct items = .ok ()) : (items.map filename).Nodup := by
  rw [checkDistinct] at h
  cases hclash : clashFrom? [] items with
  | none => exact (clashFrom?_eq_none.1 hclash).1
  | some p =>
    rw [hclash] at h
    cases h

end FetchItem

namespace ShellWorkflow

variable {r : Recipe} {w : ShellWorkflow} {items : List FetchItem} {i : FetchItem}
  {command : String}

theorem found_spec (h : i ∈ items) :
    found items i.source ∈ items ∧ (found items i.source).source = i.source := by
  have hfound := find?_eq_found (List.mem_map.2 ⟨i, h, rfl⟩)
  have hsource := List.find?_some hfound
  exact ⟨List.mem_reverse.1 (List.mem_of_find?_eq_some hfound), of_decide_eq_true hsource⟩

/-- Items that are all found under their own sources. -/
theorem found_of_nodup (h : (items.map FetchItem.source).Nodup) (hi : i ∈ items) :
    found items i.source = i :=
  List.inj_on_of_nodup_map h (found_spec hi).1 hi (found_spec hi).2

/-- No two items have one source if and only if each is found under its own. -/
theorem nodup_source_iff (h : items.Nodup) :
    (items.map FetchItem.source).Nodup ↔ ∀ i ∈ items, found items i.source = i := by
  constructor
  · exact fun hs i hi => found_of_nodup hs hi
  · intro hself
    refine List.Nodup.map_on ?_ h
    intro i hi j hj hij
    rw [← hself i hi, ← hself j hj, hij]

/-- What a task's script sets up for the runs of a command. -/
def readTask (command : String) (t : Task) : Option (List (String × String)) :=
  t.container.script?.bind (readScript command)

/-- What the scripts of some tasks set up, task after task. -/
def processed (command : String) (ts : List Task) : Option (List (String × String)) :=
  (ts.mapM (readTask command)).map List.flatten

theorem processed_behind (names : List String) (s : Stage) :
    processed command (Graph.behind names s).tasks = processed command s.tasks := by
  rw [processed, Graph.behind, List.mapM_map]
  rfl

theorem processed_mapIdx {α : Type} {f : Nat → α → Task} {g : α → List (String × String)}
    (h : ∀ n a, readTask command (f n a) = some (g a)) (xs : List α) :
    processed command (xs.mapIdx f) = some (xs.flatMap g) := by
  have hmap : (xs.mapIdx f).mapM (readTask command) = some (xs.map g) := by
    induction xs generalizing f with
    | nil => rfl
    | cons x xs ih =>
      rw [List.mapIdx_cons, List.mapM_cons, h, ih fun n a => h (n + 1) a]
      rfl
  rw [processed, hmap, List.flatMap]
  rfl

/-- The tasks of the first command run it on what is found under the items' sources. -/
theorem processed_commandTasks :
    processed command (commandTasks r w items 0 command) =
      some (items.map fun i => assignment (inputsDir r.id) (found items i.source)) := by
  have hread : ∀ (p : Nat) (sources : List String),
      readTask command (fileTask r ⟨r.id, 0, p⟩ (sources.map (found items)) command) =
        some (sources.map fun s => assignment (inputsDir r.id) (found items s)) := by
    intro p sources
    refine (readScript_partitionScript r.id p).trans ?_
    rw [List.map_map]
    rfl
  have hall : (Partition.chunks (Partition.clamp w.parallel.effectiveSize) items.length
      (items.map FetchItem.source)).flatten = items.map FetchItem.source :=
    Partition.flatten_chunks (Partition.one_le_clamp _) (Nat.le_of_eq (List.length_map _))
  rw [commandTasks, processed_mapIdx hread, List.flatMap, ← List.map_flatten, hall, List.map_map]
  rfl

section FirstStage

variable {g : Graph} {rest : List String}

/-- The stage of a recipe's first command. -/
def firstStage (r : Recipe) (w : ShellWorkflow) (items : List FetchItem) (command : String) :
    Stage :=
  if w.parallel.enabled then commandStage r w items 0 command else stepStage r 0 command

/-- The first command of a compiled recipe runs right behind fetching. -/
theorem find?_firstStage (hg : r.compile = .ok g) (hw : r.workflow = .shell w)
    (hitems : FetchItem.ofInputs r.inputs = .ok items) (hc : w.commands = command :: rest) :
    g.stages.find? (·.kind = .process 0) =
      some (Graph.behind [fetchName] (firstStage r w items command)) := by
  obtain ⟨ss, hplan, rfl⟩ := Recipe.compile_planned hg
  have hfind : ∀ (fetch : Task) (stage : Nat → String → Stage) (publish : Task),
      fetch.name = fetchName → (stage 0 command).kind = .process 0 →
      ((emptyGraph r).appendAll (shellStages fetch stage w.commands publish)).stages.find?
        (·.kind = .process 0) = some (Graph.behind [fetchName] (stage 0 command)) := by
    intro fetch stage publish hfetch hkind
    rw [Graph.stages_appendAll]
    simp [emptyGraph, Graph.empty, Graph.label, Graph.lastNames, shellStages, hc, Graph.wire,
      Graph.behind, hkind, hfetch]
  cases hplan with
  | visualization hv => cases hw.symm.trans hv
  | sequential hw' hseq hitems' hmake =>
    obtain rfl : w = _ := Workflow.shell.inj (hw.symm.trans hw')
    rw [firstStage, hseq]
    exact hfind _ _ _ rfl rfl
  | partitioned hw' hpar hitems' _ _ hmake =>
    obtain rfl : w = _ := Workflow.shell.inj (hw.symm.trans hw')
    obtain rfl : items = _ := Except.ok.inj (hitems.symm.trans hitems')
    rw [firstStage, hpar]
    exact hfind _ _ _ rfl rfl

theorem find?_commandStage (hg : r.compile = .ok g) (hw : r.workflow = .shell w)
    (hpar : w.parallel.enabled = true) (hitems : FetchItem.ofInputs r.inputs = .ok items)
    (hc : w.commands = command :: rest) : g.stages.find? (·.kind = .process 0) =
      some (Graph.behind [fetchName] (commandStage r w items 0 command)) := by
  rw [find?_firstStage hg hw hitems hc, firstStage, if_pos hpar]

/-- A partitioned first command runs on what is found under the items' sources. -/
theorem exists_processed (hg : r.compile = .ok g) (hw : r.workflow = .shell w)
    (hpar : w.parallel.enabled = true) (hitems : FetchItem.ofInputs r.inputs = .ok items)
    (hc : w.commands = command :: rest) :
    ∃ stage, g.stages.find? (·.kind = .process 0) = some stage ∧
      processed command stage.tasks =
        some (items.map fun i => assignment (inputsDir r.id) (found items i.source)) := by
  refine ⟨_, find?_commandStage hg hw hpar hitems hc, ?_⟩
  rw [processed_behind]
  exact processed_commandTasks

theorem nodup_filename_of_compile (hg : r.compile = .ok g) (hw : r.workflow = .shell w)
    (hpar : w.parallel.enabled = true) (hitems : FetchItem.ofInputs r.inputs = .ok items) :
    (items.map FetchItem.filename).Nodup := by
  obtain ⟨ss, hplan, rfl⟩ := Recipe.compile_planned hg
  cases hplan with
  | sequential hw' hseq =>
    obtain rfl : w = _ := Workflow.shell.inj (hw.symm.trans hw')
    cases hpar.symm.trans hseq
  | visualization hv => cases hw.symm.trans hv
  | partitioned hw' _ hitems' hdistinct _ _ =>
    obtain rfl : items = _ := Except.ok.inj (hitems.symm.trans hitems')
    exact FetchItem.nodup_filename hdistinct

end FirstStage

/-- The first command runs on the very items that are fetched if no two have one source, and only
then: else it runs twice on one of them, and an OUTPUT_FILE is written twice. -/
theorem found_eq_iff (staging : String) (h : (items.map FetchItem.filename).Nodup) :
    (items.map (fun i => assignment staging (found items i.source)) =
        items.map (assignment staging) ↔ (items.map FetchItem.source).Nodup) ∧
      ((items.map fun i => (found items i.source).filename).Nodup ↔
        (items.map FetchItem.source).Nodup) := by
  have hnodup : items.Nodup := List.Nodup.of_map _ h
  refine ⟨⟨?_, ?_⟩, ⟨?_, ?_⟩⟩
  · intro heq
    have hself : ∀ i ∈ items, found items i.source = i := by
      intro i hi
      have hname := congrArg Prod.snd (List.map_inj_left.1 heq i hi)
      exact List.inj_on_of_nodup_map h (found_spec hi).1 hi hname
    exact (nodup_source_iff hnodup).2 hself
  · intro hs
    apply List.map_congr_left
    intro i hi
    rw [found_of_nodup hs hi]
  · intro hout
    refine List.Nodup.map_on ?_ hnodup
    intro i hi j hj hij
    exact List.inj_on_of_nodup_map hout hi hj (by rw [hij])
  · intro hs
    have hname : ∀ i ∈ items, (found items i.source).filename = i.filename := by
      intro i hi
      rw [found_of_nodup hs hi]
    rwa [List.map_congr_left hname]

/-- The first command of a partitioned recipe runs once on each of its items, in order, exactly if
no two of them have one source. -/
theorem compile_processed {g : Graph} {rest : List String} (hg : r.compile = .ok g)
    (hw : r.workflow = .shell w) (hpar : w.parallel.enabled = true)
    (hitems : FetchItem.ofInputs r.inputs = .ok items) (hc : w.commands = command :: rest) :
    ∃ stage ps, g.stages.find? (·.kind = .process 0) = some stage ∧
      processed command stage.tasks = some ps ∧
      ps = items.map (fun i => assignment (inputsDir r.id) (found items i.source)) ∧
      (ps = items.map (assignment (inputsDir r.id)) ↔ (items.map FetchItem.source).Nodup) ∧
      ((ps.map Prod.snd).Nodup ↔ (items.map FetchItem.source).Nodup) := by
  obtain ⟨stage, hstage, hps⟩ := exists_processed hg hw hpar hitems hc
  obtain ⟨heq, hout⟩ := found_eq_iff (inputsDir r.id) (nodup_filename_of_compile hg hw hpar hitems)
  refine ⟨stage, _, hstage, hps, rfl, heq, ?_⟩
  rw [List.map_map]
  exact hout

/-- A recipe that names one object both by its URL and through a dataset, where it has a name. -/
def listedTwice : Recipe where
  name := "r"
  id := "r"
  image := none
  inputs := [⟨.url, "https://node.example/v2/object/urn-1", none, []⟩,
    ⟨.dataone, "ds-1", none,
      [⟨"urn-1", "https://node.example/v2/object/urn-1", "data.nc", "", 0, ""⟩]⟩]
  output := .pvc
  workflow := .shell ⟨"d/recipe.sh", ["gzip $INPUT_FILE"], ⟨true, none⟩⟩
  directory := "d"

/-- The items of `listedTwice`. -/
def listedItems : List FetchItem :=
  [.download "https://node.example/v2/object/urn-1" "urn-1",
    .download "https://node.example/v2/object/urn-1" "data.nc"]

theorem compile_processed_listedTwice : ∃ g stage, listedTwice.compile = .ok g ∧
    g.stages.find? (·.kind = .process 0) = some stage ∧
    processed "gzip $INPUT_FILE" stage.tasks = some (listedItems.map fun i =>
      assignment (inputsDir "r") (found listedItems i.source)) := by
  have hok : listedTwice.compile.toOption.isSome := by decide +kernel
  cases hg : listedTwice.compile with
  | error f => simp [hg, Except.toOption] at hok
  | ok g =>
    obtain ⟨stage, ps, hstage, hps, rfl, -⟩ := compile_processed hg rfl rfl
      (show FetchItem.ofInputs listedTwice.inputs = .ok listedItems by decide +kernel) rfl
    exact ⟨g, stage, rfl, hstage, hps⟩

/-- One of two items with one source is left out, and the other one is used twice. -/
theorem listedTwice_left_out :
    FetchItem.ofInputs listedTwice.inputs = .ok listedItems ∧
      listedItems.map (assignment (inputsDir "r")) =
        [("/mnt/workflow/.work/r/inputs/urn-1", "urn-1"),
          ("/mnt/workflow/.work/r/inputs/data.nc", "data.nc")] ∧
      (listedTwice.compile.toOption.bind fun g =>
          (g.stages.find? (·.kind = .process 0)).bind fun stage =>
            processed "gzip $INPUT_FILE" stage.tasks) =
        some [("/mnt/workflow/.work/r/inputs/data.nc", "data.nc"),
          ("/mnt/workflow/.work/r/inputs/data.nc", "data.nc")] := by
  refine ⟨?_, ?_, ?_⟩ <;> decide +kernel

end ShellWorkflow

end RecipeFlow
