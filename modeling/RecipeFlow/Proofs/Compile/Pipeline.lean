import RecipeFlow.Compile.Basic
import RecipeFlow.Proofs.Compile.Partitions
import RecipeFlow.Proofs.Graph.Wiring

/-! The stages that recipes compile to, one list for each kind of workflow. -/
namespace RecipeFlow

namespace ShellWorkflow

variable {r : Recipe} {w : ShellWorkflow} {items : List FetchItem} {g : Graph}
  {cs : List (String × Nat)}

/-- The stage of a single publishing task. -/
def publishStage (publish : Task) : Stage :=
  ⟨"publish", .publish, [publish]⟩

/-- The stage of a command that runs in one task. -/
def stepStage (r : Recipe) (k : Nat) (command : String) : Stage :=
  ⟨stepName k, .process k, [stepTask r k command]⟩

/-- The stage of a command that runs on partitions. -/
def commandStage (r : Recipe) (w : ShellWorkflow) (items : List FetchItem) (k : Nat)
    (command : String) : Stage :=
  ⟨commandStageName k, .process k, commandTasks r w items k command⟩

/-- Fetching, a stage for each command, publishing. -/
def shellStages (fetch : Task) (stage : Nat → String → Stage) (commands : List String)
    (publish : Task) : List Stage :=
  ⟨"fetch", .fetch, [fetch]⟩ :: (commands.zipIdx.map fun (command, k) => stage k command) ++
    [publishStage publish]

/-- The stages of a recipe whose commands run in one task each. -/
def sequentialStages (r : Recipe) (w : ShellWorkflow) (items : List FetchItem)
    (publish : Task) : List Stage :=
  shellStages (fetchTask items) (stepStage r) w.commands publish

/-- The stages of a recipe whose commands run on partitions of its inputs. -/
def partitionedStages (r : Recipe) (w : ShellWorkflow) (items : List FetchItem)
    (publish : Task) : List Stage :=
  shellStages (stagingTask r items) (commandStage r w items) w.commands publish

theorem sequential_eq_ok (h : w.sequential r items = .ok g) :
    ∃ publish, PublishTask.make r (.task (previousName w.commands.length)) = .ok publish ∧
      g = (emptyGraph r).appendAll (sequentialStages r w items publish) := by
  obtain ⟨publish, hp, hg⟩ := bind_eq_ok.1 h
  cases hg
  refine ⟨publish, hp, ?_⟩
  simp only [sequentialStages, shellStages, Graph.appendAll_append, Graph.appendAll_cons]
  simp only [Graph.appendAll, List.foldl_map]
  rfl

theorem foldlM_commandStage (h : items ≠ [] ∨ cs = []) :
    cs.foldlM (fun (g : Graph) (command, k) => do
      let tasks ← partitionTasks r w items k command
      return g.append (commandStageName k) (.process k) tasks) g =
    (.ok (g.appendAll (cs.map fun (command, k) => commandStage r w items k command)) :
      Except Fault Graph) := by
  rcases h with h | rfl
  · simp only [partitionTasks_eq_ok h, Graph.appendAll, List.foldl_map]
    exact List.foldlM_pure
  · rfl

/-- What is left to go wrong once fetching is planned is to publish. -/
theorem partitioned_eq (hnames : FetchItem.checkDistinct items = .ok ())
    (hsome : items ≠ [] ∨ w.commands = []) : w.partitioned r items = do
      let publish ← PublishTask.make r (.partitions (w.commands.length - 1))
      return (emptyGraph r).appendAll (partitionedStages r w items publish) := by
  have hcommands : items ≠ [] ∨ w.commands.zipIdx = [] :=
    hsome.imp_right fun hnil => by rw [hnil]; rfl
  simp only [partitioned, hnames, foldlM_commandStage hcommands, partitionedStages, shellStages,
    Graph.appendAll_append, Graph.appendAll_cons]
  rfl

/-- Partitioned commands need files, since there is no partition of none. -/
theorem partitioned_eq_ok (h : w.partitioned r items = .ok g) :
    FetchItem.checkDistinct items = .ok () ∧ (items ≠ [] ∨ w.commands = []) ∧
      ∃ publish, PublishTask.make r (.partitions (w.commands.length - 1)) = .ok publish ∧
        g = (emptyGraph r).appendAll (partitionedStages r w items publish) := by
  obtain ⟨u, hd, hrest⟩ := bind_eq_ok.1 h
  obtain ⟨processed, hf, -⟩ := bind_eq_ok.1 hrest
  have hsome : items ≠ [] ∨ w.commands = [] := by
    cases hc : w.commands with
    | nil => exact .inr rfl
    | cons command rest =>
      refine .inl fun hnil => ?_
      rw [hc, hnil, List.zipIdx_cons, List.foldlM_cons] at hf
      obtain ⟨_, hstage, _⟩ := bind_eq_ok.1 hf
      obtain ⟨tasks, htasks, _⟩ := bind_eq_ok.1 hstage
      exact partitionTasks_nil 0 command tasks htasks
  rw [partitioned_eq hd hsome] at h
  obtain ⟨publish, hp, hg⟩ := bind_eq_ok.1 h
  cases hg
  exact ⟨hd, hsome, publish, hp, rfl⟩

end ShellWorkflow

namespace Visualization

variable {r : Recipe} {v : Visualization} {g : Graph}

/-- The stages of a recipe that tiles the file of an input. -/
def stages (r : Recipe) (v : Visualization) (i : Input) : List Stage :=
  [⟨"prepare", .auxiliary, [stageConfigTask r.id v.configJson,
      batchingTask r.id (r.image.getD tilingImage) i.value v.batchSize]⟩,
    ⟨tilingName, .process 0, [tilingTask r.id (r.image.getD tilingImage)]⟩]

theorem graph_eq_ok (h : v.graph r = .ok g) : r.output = .pvc ∧
    ∃ i rest, r.inputs = i :: rest ∧ i.kind = .url ∧
      g = (ShellWorkflow.emptyGraph r).appendAll (v.stages r i) := by
  rw [graph] at h
  split at h
  · cases h
  · rename_i hpvc
    split at h
    · cases h
    · rename_i i rest hinputs
      split at h
      · cases h
      · rename_i hurl
        cases h
        exact ⟨Decidable.not_not.1 hpvc, i, rest, hinputs, Decidable.not_not.1 hurl, rfl⟩

end Visualization

/-- The stages that a recipe may have. -/
inductive Planned (r : Recipe) : List Stage → Prop
  | sequential {w : ShellWorkflow} {items : List FetchItem} {publish : Task}
      (hw : r.workflow = .shell w) (hseq : w.parallel.enabled = false)
      (hitems : FetchItem.ofInputs r.inputs = .ok items)
      (hpublish : PublishTask.make r (.task (ShellWorkflow.previousName w.commands.length)) =
        .ok publish) :
      Planned r (w.sequentialStages r items publish)
  | partitioned {w : ShellWorkflow} {items : List FetchItem} {publish : Task}
      (hw : r.workflow = .shell w) (hpar : w.parallel.enabled = true)
      (hitems : FetchItem.ofInputs r.inputs = .ok items)
      (hdistinct : FetchItem.checkDistinct items = .ok ())
      (hsome : items ≠ [] ∨ w.commands = [])
      (hpublish : PublishTask.make r (.partitions (w.commands.length - 1)) = .ok publish) :
      Planned r (w.partitionedStages r items publish)
  | visualization {v : Visualization} {i : Input} {rest : List Input}
      (hv : r.workflow = .visualization v) (hinputs : r.inputs = i :: rest) (hurl : i.kind = .url)
      (hpvc : r.output = .pvc) :
      Planned r (v.stages r i)

/-- A graph that is compiled has been put together from planned stages. -/
theorem Recipe.compile_planned {r : Recipe} {g : Graph} (h : r.compile = .ok g) :
    ∃ ss, Planned r ss ∧ g = (ShellWorkflow.emptyGraph r).appendAll ss := by
  obtain ⟨items, hitems, h⟩ := bind_eq_ok.1 h
  cases hw : r.workflow with
  | shell w =>
    rw [hw] at h
    cases hpar : w.parallel.enabled with
    | true =>
      simp only [hpar, if_true] at h
      obtain ⟨hd, hsome, publish, hp, rfl⟩ := ShellWorkflow.partitioned_eq_ok h
      exact ⟨_, .partitioned hw hpar hitems hd hsome hp, rfl⟩
    | false =>
      simp only [hpar] at h
      obtain ⟨publish, hp, rfl⟩ := ShellWorkflow.sequential_eq_ok h
      exact ⟨_, .sequential hw hpar hitems hp, rfl⟩
  | visualization v =>
    rw [hw] at h
    obtain ⟨hpvc, i, rest, hinputs, hurl, rfl⟩ := Visualization.graph_eq_ok h
    exact ⟨_, .visualization hw hinputs hurl hpvc, rfl⟩

theorem Recipe.generateName_of_compile {r : Recipe} {g : Graph} (h : r.compile = .ok g) :
    g.generateName = r.id ++ "-" ++ r.workflow.kind ++ "-" := by
  obtain ⟨ss, -, rfl⟩ := compile_planned h
  rw [Graph.generateName_appendAll]
  rfl

end RecipeFlow
