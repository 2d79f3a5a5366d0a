import Mathlib.Data.List.Nodup
import Mathlib.Data.Nat.Init
import Mathlib.Logic.Relation
import RecipeFlow.Proofs.Graph.Wiring

/-! Graphs as pipelines: which task waits for which, by name, and in what order they come to run. -/
namespace RecipeFlow.Graph

variable {g : Graph} {s s' : Stage} {ss : List Stage} {names : List String} {t u : Task}
  {m n : Nat} {a b : String}

/-- A task of one name waits for the task of another. -/
def WaitsFor (g : Graph) (a b : String) : Prop :=
  ∃ t ∈ g.tasks, t.name = a ∧ b ∈ t.dependencies

/-- No stage is idle, names are apart, and each task waits for just the stage before its own. -/
structure IsStaged (g : Graph) : Prop where
  busy : ∀ s ∈ g.stages, s.tasks ≠ []
  names : (g.tasks.map Task.name).Nodup
  first : ∀ s, g.stages[0]? = some s → ∀ t ∈ s.tasks, t.dependencies = []
  later : ∀ n s s', g.stages[n]? = some s → g.stages[n + 1]? = some s' →
    ∀ t ∈ s'.tasks, t.dependencies = s.tasks.map Task.name

/-- The position of the first stage with a task of a name. -/
def level (g : Graph) (a : String) : Nat :=
  g.stages.findIdx fun s => s.tasks.any fun t => t.name = a

theorem mem_tasks_of_stage (hs : g.stages[n]? = some s) (ht : t ∈ s.tasks) : t ∈ g.tasks :=
  List.mem_flatMap.2 ⟨s, List.mem_of_getElem? hs, ht⟩

theorem exists_stage (ht : t ∈ g.tasks) :
    ∃ (n : Nat) (s : Stage), g.stages[n]? = some s ∧ t ∈ s.tasks := by
  obtain ⟨s, hs, ht⟩ := List.mem_flatMap.1 ht
  obtain ⟨n, hn⟩ := List.mem_iff_getElem?.1 hs
  exact ⟨n, s, hn, ht⟩

/-- Each task waits for just the stage before its own. -/
structure IsChained (g : Graph) : Prop where
  first : ∀ s, g.stages[0]? = some s → ∀ t ∈ s.tasks, t.dependencies = []
  later : ∀ n s s', g.stages[n]? = some s → g.stages[n + 1]? = some s' →
    ∀ t ∈ s'.tasks, t.dependencies = s.tasks.map Task.name

/-- No tasks of two stages share a name. -/
def NamesApart (ss : List Stage) : Prop :=
  (ss.map fun s => s.tasks.map Task.name).Pairwise List.Disjoint

theorem NamesApart.disjoint (h : NamesApart ss) (hmn : m < n) (hs : ss[m]? = some s)
    (hs' : ss[n]? = some s') : (s.tasks.map Task.name).Disjoint (s'.tasks.map Task.name) := by
  obtain ⟨hm, rfl⟩ := List.getElem?_eq_some_iff.1 hs
  obtain ⟨hn, rfl⟩ := List.getElem?_eq_some_iff.1 hs'
  exact List.pairwise_iff_getElem.1 (List.pairwise_map.1 h) m n hm hn hmn

/-- Where stages share no name, the level of a task's name is the position of its stage. -/
theorem NamesApart.level_eq (h : NamesApart g.stages) (hs : g.stages[n]? = some s)
    (ht : t ∈ s.tasks) : g.level t.name = n := by
  obtain ⟨hn, rfl⟩ := List.getElem?_eq_some_iff.1 hs
  refine (List.findIdx_eq hn).2 ⟨?_, ?_⟩
  · simp only [List.any_eq_true, decide_eq_true_eq]
    exact ⟨t, ht, rfl⟩
  · intro k hk
    simp only [List.any_eq_false, decide_eq_true_eq]
    intro u hu hname
    have hapart := h.disjoint hk (List.getElem?_eq_getElem (Nat.lt_trans hk hn)) hs
    exact hapart (List.mem_map.2 ⟨u, hu, rfl⟩) (List.mem_map.2 ⟨t, ht, hname.symm⟩)

namespace IsChained

/-- What a task waits for is on a lower level. -/
theorem level_lt (h : g.IsChained) (hapart : NamesApart g.stages) (hw : g.WaitsFor a b) :
    g.level b < g.level a := by
  obtain ⟨t, ht, rfl, hb⟩ := hw
  obtain ⟨n, s, hs, ht⟩ := exists_stage ht
  rw [hapart.level_eq hs ht]
  cases n with
  | zero =>
    rw [h.first s hs t ht] at hb
    cases hb
  | succ n =>
    obtain ⟨hn, -⟩ := List.getElem?_eq_some_iff.1 hs
    have hbefore := List.getElem?_eq_getElem (Nat.lt_of_succ_lt hn)
    rw [h.later n _ s hbefore hs t ht] at hb
    obtain ⟨u, hu, rfl⟩ := List.mem_map.1 hb
    rw [hapart.level_eq hbefore hu]
    exact Nat.lt_succ_self n

theorem level_lt_of_transGen (h : g.IsChained) (hapart : NamesApart g.stages)
    (hab : Relation.TransGen g.WaitsFor a b) : g.level b < g.level a := by
  induction hab with
  | single hw => exact h.level_lt hapart hw
  | tail _ hw ih => exact Nat.lt_trans (h.level_lt hapart hw) ih

theorem acyclic (h : g.IsChained) (hapart : NamesApart g.stages) (a : String) :
    ¬ Relation.TransGen g.WaitsFor a a := by
  intro hcycle
  exact Nat.lt_irrefl _ (h.level_lt_of_transGen hapart hcycle)

theorem waitsFor (h : g.IsChained) (hs : g.stages[n]? = some s)
    (hs' : g.stages[n + 1]? = some s') (hu : u ∈ s.tasks) (ht : t ∈ s'.tasks) :
    g.WaitsFor t.name u.name := by
  refine ⟨t, mem_tasks_of_stage hs' ht, rfl, ?_⟩
  rw [h.later n s s' hs hs' t ht]
  exact List.mem_map.2 ⟨u, hu, rfl⟩

/-- Through the stages between them, if none is idle, a task waits for each earlier one. -/
theorem ordered (h : g.IsChained) (hbusy : ∀ s ∈ g.stages, s.tasks ≠ []) (hmn : m < n)
    (hs : g.stages[m]? = some s) (hs' : g.stages[n]? = some s') (hu : u ∈ s.tasks)
    (ht : t ∈ s'.tasks) : Relation.TransGen g.WaitsFor t.name u.name := by
  induction n, hmn using Nat.le_induction generalizing s' t with
  | base => exact .single (h.waitsFor hs hs' hu ht)
  | succ n hmn ih =>
    obtain ⟨hn, -⟩ := List.getElem?_eq_some_iff.1 hs'
    have hbetween := List.getElem?_eq_getElem (Nat.lt_of_succ_lt hn)
    obtain ⟨v, hv⟩ := List.exists_mem_of_ne_nil _ (hbusy _ (List.mem_of_getElem? hbetween))
    exact .head (h.waitsFor hbetween hs' hv ht) (ih hbetween hv)

end IsChained

namespace IsStaged

theorem namesApart (h : g.IsStaged) : NamesApart g.stages := by
  have hnames := h.names
  rw [tasks, List.map_flatMap, List.nodup_flatMap] at hnames
  exact List.pairwise_map.2 hnames.2

end IsStaged

theorem layout_wire :
    (wire names ss).map (fun s => (s.kind, s.tasks.map Task.name)) =
      ss.map fun s => (s.kind, s.tasks.map Task.name) := by
  induction ss generalizing names with
  | nil => rfl
  | cons s ss ih =>
    rw [wire, List.map_cons, List.map_cons, ih, names_behind]
    rfl

/-- A wired stage is the one that stood there, behind some tasks. -/
theorem getElem?_wire (names : List String) (ss : List Stage) (n : Nat) :
    ∃ ds, (wire names ss)[n]? = ss[n]?.map (behind ds) := by
  induction ss generalizing names n with
  | nil => exact ⟨names, rfl⟩
  | cons s ss ih =>
    cases n with
    | zero => exact ⟨names, rfl⟩
    | succ n => exact ih _ n

theorem dependencies_wire (hs : (wire names ss)[n]? = some s)
    (hs' : (wire names ss)[n + 1]? = some s') :
    ∀ t ∈ s'.tasks, t.dependencies = s.tasks.map Task.name := by
  induction ss generalizing names n with
  | nil => cases hs
  | cons s₁ ss ih =>
    cases n with
    | zero =>
      cases hs
      cases ss with
      | nil => cases hs'
      | cons s₂ ss =>
        cases hs'
        intro t ht
        obtain ⟨u, -, rfl⟩ := List.mem_map.1 ht
        exact names_behind.symm
    | succ n => exact ih hs hs'

/-- A stage that is not idle is not idle in a graph. -/
theorem busy_appendAll (h : g.stages = []) (hbusy : ∀ s ∈ ss, s.tasks ≠ []) :
    ∀ s ∈ (g.appendAll ss).stages, s.tasks ≠ [] := by
  intro s hs
  rw [stages_appendAll, h, List.nil_append] at hs
  obtain ⟨n, hn⟩ := List.mem_iff_getElem?.1 hs
  obtain ⟨ds, hwire⟩ := getElem?_wire g.lastNames ss n
  obtain ⟨s₀, hs₀, rfl⟩ := Option.map_eq_some_iff.1 (hwire.symm.trans hn)
  simpa [behind] using hbusy s₀ (List.mem_of_getElem? hs₀)

/-- Whatever is appended to nothing, each stage is chained to the one before. -/
theorem isChained_appendAll (h : g.stages = []) : (g.appendAll ss).IsChained := by
  have hstages : (g.appendAll ss).stages = wire [] ss := by
    rw [stages_appendAll, lastNames, h]
    rfl
  constructor
  · intro s hs t ht
    rw [hstages] at hs
    cases ss with
    | nil => cases hs
    | cons s₁ ss =>
      cases hs
      obtain ⟨u, -, rfl⟩ := List.mem_map.1 ht
      rfl
  · intro n s s' hs hs'
    rw [hstages] at hs hs'
    exact dependencies_wire hs hs'

end RecipeFlow.Graph
