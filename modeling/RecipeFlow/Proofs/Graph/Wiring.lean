import RecipeFlow.Graph.Basic

/-! Graphs built from a list of stages: each task waits for the whole stage before its own. -/
namespace RecipeFlow.Graph

variable {g : Graph} {s : Stage} {ss pre post : List Stage} {names : List String} {t : Task}

/-- Appends stages one after the other. -/
def appendAll (g : Graph) (ss : List Stage) : Graph :=
  ss.foldl (fun g s => g.append s.name s.kind s.tasks) g

/-- The tasks of a stage, waiting for the given ones. -/
def behind (names : List String) (s : Stage) : Stage :=
  { s with tasks := s.tasks.map fun t => { t with dependencies := names } }

/-- The first stage waits for the given tasks, and each later one for the stage before it. -/
def wire : List String → List Stage → List Stage
  | _, [] => []
  | names, s :: ss => behind names s :: wire (s.tasks.map Task.name) ss

@[simp] theorem names_behind : (behind names s).tasks.map Task.name = s.tasks.map Task.name := by
  rw [behind, List.map_map]
  rfl

@[simp] theorem appendAll_nil : g.appendAll [] = g := rfl

@[simp] theorem appendAll_cons :
    g.appendAll (s :: ss) = (g.append s.name s.kind s.tasks).appendAll ss := rfl

@[simp] theorem appendAll_append :
    g.appendAll (pre ++ post) = (g.appendAll pre).appendAll post := by
  simp [appendAll]

@[simp] theorem generateName_appendAll : (g.appendAll ss).generateName = g.generateName := by
  induction ss generalizing g with
  | nil => rfl
  | cons s ss ih => rw [appendAll_cons, ih]; rfl

theorem usesVolume_appendAll : (g.appendAll ss).usesVolume =
    (g.usesVolume || (ss.flatMap Stage.tasks).any fun t => !t.container.mounts.isEmpty) := by
  induction ss generalizing g with
  | nil => simp
  | cons s ss ih => simp [ih, append, Bool.or_assoc]

@[simp] theorem lastNames_append {name : String} {kind : StageKind} {tasks : List Task} :
    (g.append name kind tasks).lastNames = tasks.map Task.name := by
  simp [lastNames, append, Function.comp_def]

theorem stages_appendAll : (g.appendAll ss).stages = g.stages ++ wire g.lastNames ss := by
  induction ss generalizing g with
  | nil => simp [wire]
  | cons s ss ih =>
    rw [appendAll_cons, ih, lastNames_append]
    simp [wire, append, behind]

/-- The tasks of a graph that is built from stages on nothing. -/
theorem tasks_appendAll (h : g.stages = []) :
    (g.appendAll ss).tasks = (wire [] ss).flatMap Stage.tasks := by
  rw [tasks, stages_appendAll, lastNames, h]
  rfl

/-- Wiring changes no task but for what it waits for. -/
theorem map_flatMap_wire {α : Type} (f : Task → α)
    (hf : ∀ t ds, f { t with dependencies := ds } = f t) :
    ((wire names ss).flatMap Stage.tasks).map f = (ss.flatMap Stage.tasks).map f := by
  induction ss generalizing names with
  | nil => rfl
  | cons s ss ih => simp [wire, behind, ih, hf, Function.comp_def]

theorem names_appendAll (h : g.stages = []) :
    (g.appendAll ss).tasks.map Task.name = (ss.flatMap Stage.tasks).map Task.name := by
  rw [tasks_appendAll h, map_flatMap_wire Task.name fun _ _ => rfl]

/-- A wired task comes from a stage and waits for the tasks of the one before. -/
theorem mem_wire (h : t ∈ (wire names ss).flatMap Stage.tasks) :
    ∃ pre s post, ss = pre ++ s :: post ∧ ∃ u ∈ s.tasks,
      t = { u with dependencies := match pre.getLast? with
        | some p => p.tasks.map Task.name
        | none => names } := by
  induction ss generalizing names with
  | nil => simp [wire] at h
  | cons s ss ih =>
    rw [wire, List.flatMap_cons, List.mem_append] at h
    rcases h with h | h
    · obtain ⟨u, hu, rfl⟩ := List.mem_map.1 h
      exact ⟨[], s, ss, rfl, u, hu, rfl⟩
    · obtain ⟨pre, s', post, rfl, u, hu, rfl⟩ := ih h
      refine ⟨s :: pre, s', post, rfl, u, hu, ?_⟩
      cases pre <;> simp [List.getLast?_cons]

end RecipeFlow.Graph
