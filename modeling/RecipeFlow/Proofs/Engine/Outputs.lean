import RecipeFlow.Engine.Server
import RecipeFlow.Proofs.Table
import RecipeFlow.Publish.State

/-! Outputs of steps: what a snapshot takes from them, and when the order in which they are visited
makes a difference. -/
namespace RecipeFlow

/-- The snapshots of one execution that differ in the values of outputs at most. -/
structure Execution.SameShape (e e' : Execution) : Prop where
  name : e.name = e'.name
  phase : e.phase? = e'.phase?
  keys : e.outputs.map (fun t => (t.1, t.2.map Prod.fst)) =
    e'.outputs.map fun t => (t.1, t.2.map Prod.fst)

namespace Server

variable {k task requested : String} {outputs : Table (Table String)} {ps : List (String × String)}
  {pss pss' : List (List (String × String))} {r : Resource} {s : Step} {ss ss' : List Step}

/-- The values that a step shows for a task. -/
def Step.shown? (task : String) (s : Step) : Option (List (String × String)) :=
  if s.task = some task then
    s.parameters.map (·.filterMap fun p => p.2.map (p.1, ·))
  else none

/-- The values that steps show for a task, step by step. -/
def shown (task : String) (ss : List Step) : List (List (String × String)) :=
  ss.filterMap (Step.shown? task)

/-- Whatever is shown twice under a key is the same. -/
def Agree (pss : List (List (String × String))) : Prop :=
  ∀ ps ∈ pss, ∀ qs ∈ pss, ∀ k v u, Table.lastValue? k ps = some v →
    Table.lastValue? k qs = some u → v = u

namespace Resource

/-- The steps that a resource shows. -/
def steps (r : Resource) : List Step :=
  match r.progress with
  | some p => p.steps
  | none => []

/-- A resource with its steps in the order in which they are visited. -/
def visiting (ss : List Step) (r : Resource) : Resource :=
  { r with progress := r.progress.map fun p => { p with steps := ss } }

end Resource

/-! What is taken from the steps of a task. -/

theorem find?_addStep : Table.find? task (addStep outputs s) = match s.shown? task with
    | some ps => some (ps.foldl (fun t p => Table.insert p.1 p.2 t)
        ((Table.find? task outputs).getD []))
    | none => Table.find? task outputs := by
  obtain ⟨task', parameters⟩ := s
  cases task' with
  | none => rfl
  | some task' =>
    cases parameters with
    | none => simp [addStep, Step.shown?]
    | some ps =>
      by_cases htask : task = task'
      · subst htask
        simp only [addStep, Step.shown?, if_true, Option.map_some, Table.find?_insert,
          List.foldl_filterMap]
        -- A parameter without a value leaves the table as it is.
        congr 2
        funext t p
        cases p.2 with
        | none => rfl
        | some v => rfl
      · have hne : some task' ≠ some task := fun he => htask (Option.some.inj he).symm
        simp only [addStep, Step.shown?, Table.find?_insert, if_neg htask, if_neg hne]

theorem ascending_addStep (h : outputs.Ascending) : (addStep outputs s).Ascending := by
  unfold addStep
  split
  · exact h.insert
  · exact h

theorem find?_foldl_addStep : Table.find? task (ss.foldl addStep outputs) =
    if shown task ss = [] then Table.find? task outputs
    else some ((shown task ss).flatten.foldl (fun t p => Table.insert p.1 p.2 t)
      ((Table.find? task outputs).getD [])) := by
  induction ss generalizing outputs with
  | nil => rfl
  | cons s ss ih =>
    rw [List.foldl_cons, ih, find?_addStep]
    cases hs : s.shown? task with
    | none =>
      have hskip : shown task (s :: ss) = shown task ss := List.filterMap_cons_none hs
      rw [hskip]
    | some ps =>
      have hcons : shown task (s :: ss) = ps :: shown task ss := List.filterMap_cons_some hs
      rw [hcons, if_neg (List.cons_ne_nil _ _), List.flatten_cons, List.foldl_append]
      by_cases hnil : shown task ss = []
      · rw [if_pos hnil, hnil]
        rfl
      · rw [if_neg hnil]
        rfl

/-- The outputs that a snapshot takes from steps. -/
def outputsOf (ss : List Step) : Table (Table String) :=
  ss.foldl addStep []

theorem ascending_outputsOf (ss : List Step) : (outputsOf ss).Ascending := by
  have hall : ∀ outputs : Table (Table String), outputs.Ascending →
      (ss.foldl addStep outputs).Ascending := by
    induction ss with
    | nil => exact fun outputs h => h
    | cons s ss ih => exact fun outputs h => ih _ (ascending_addStep h)
  exact hall [] List.Pairwise.nil

/-- A task is there if a step shows values for it, and of two values under one key the last
counts. -/
theorem find?_outputsOf : Table.find? task (outputsOf ss) =
    if shown task ss = [] then none else some (Table.ofList (shown task ss).flatten) :=
  find?_foldl_addStep

theorem last_outputsOf : (Table.find? task (outputsOf ss)).bind (Table.find? k) =
    Table.lastValue? k (shown task ss).flatten := by
  rw [find?_outputsOf]
  by_cases hnil : shown task ss = []
  · rw [if_pos hnil, hnil]
    rfl
  · rw [if_neg hnil, Option.bind_some, Table.find?_ofList]

/-! Orders of steps. -/

theorem exists_of_lastValue?_flatten {v : String} (h : Table.lastValue? k pss.flatten = some v) :
    ∃ ps ∈ pss, Table.lastValue? k ps = some v := by
  induction pss with
  | nil => cases h
  | cons ps pss ih =>
    rw [List.flatten_cons, Table.lastValue?_append, Option.or_eq_some_iff] at h
    rcases h with h | ⟨-, h⟩
    · obtain ⟨qs, hqs, hv⟩ := ih h
      exact ⟨qs, List.mem_cons_of_mem _ hqs, hv⟩
    · exact ⟨ps, List.mem_cons_self, h⟩

/-- Lists that agree have together what any of them has. -/
theorem Agree.lastValue?_flatten {v : String} (h : Agree pss) :
    Table.lastValue? k pss.flatten = some v ↔ ∃ ps ∈ pss, Table.lastValue? k ps = some v := by
  refine ⟨exists_of_lastValue?_flatten, ?_⟩
  rintro ⟨ps, hps, hv⟩
  have hmem : (k, v) ∈ pss.flatten := List.mem_flatten.2 ⟨ps, hps, Table.mem_of_lastValue? hv⟩
  obtain ⟨u, hu⟩ := Option.ne_none_iff_exists'.1 (Table.lastValue?_ne_none hmem)
  obtain ⟨qs, hqs, hu'⟩ := exists_of_lastValue?_flatten hu
  rw [hu, h qs hqs ps hps k u v hu' hv]

theorem Agree.perm (h : Agree pss) (hperm : pss'.Perm pss) : Agree pss' :=
  fun ps hps qs hqs => h ps (hperm.mem_iff.1 hps) qs (hperm.mem_iff.1 hqs)

theorem Agree.ofList_flatten (h : Agree pss) (hperm : pss'.Perm pss) :
    Table.ofList pss'.flatten = Table.ofList pss.flatten := by
  refine (Table.ascending_ofList _).ext (Table.ascending_ofList _) ?_
  intro k
  rw [Table.find?_ofList, Table.find?_ofList]
  apply Option.ext
  intro v
  rw [(h.perm hperm).lastValue?_flatten, h.lastValue?_flatten]
  simp only [hperm.mem_iff]

theorem shown_perm (h : ss'.Perm ss) (task : String) : (shown task ss').Perm (shown task ss) :=
  h.filterMap _

theorem shown_eq_nil_iff (h : ss'.Perm ss) : shown task ss' = [] ↔ shown task ss = [] := by
  have hperm := shown_perm h task
  constructor
  · intro hnil
    rw [hnil] at hperm
    exact hperm.nil_eq.symm
  · intro hnil
    rw [hnil] at hperm
    exact hperm.eq_nil

/-- Steps whose values agree may be visited in any order. -/
theorem outputsOf_perm (h : ∀ task, Agree (shown task ss)) (hperm : ss'.Perm ss) :
    outputsOf ss' = outputsOf ss := by
  refine (ascending_outputsOf ss').ext (ascending_outputsOf ss) ?_
  intro task
  rw [find?_outputsOf, find?_outputsOf, (h task).ofList_flatten (shown_perm hperm task)]
  simp only [shown_eq_nil_iff hperm]

/-- The names of tasks and parameters are the same in any order. -/
theorem keys_outputsOf_perm (hperm : ss'.Perm ss) :
    (outputsOf ss').map (fun t => (t.1, t.2.map Prod.fst)) =
      (outputsOf ss).map fun t => (t.1, t.2.map Prod.fst) := by
  have hascending : ∀ ss : List Step, ((outputsOf ss).map fun t => (t.1, t.2.map Prod.fst)).Pairwise
      fun a b => a.1 < b.1 :=
    fun ss => List.pairwise_map.2 (List.pairwise_map.1 (ascending_outputsOf ss))
  have hmem : ∀ (ss : List Step) (task : String) (keys : List String),
      (task, keys) ∈ (outputsOf ss).map (fun t => (t.1, t.2.map Prod.fst)) ↔
        shown task ss ≠ [] ∧ (Table.ofList (shown task ss).flatten).map Prod.fst = keys := by
    intro ss task keys
    constructor
    · intro h
      obtain ⟨⟨_, values⟩, hvalues, heq⟩ := List.mem_map.1 h
      cases heq
      have hfind := (ascending_outputsOf ss).find?_eq_some.2 hvalues
      rw [find?_outputsOf] at hfind
      split at hfind
      · cases hfind
      · next hne =>
        cases hfind
        exact ⟨hne, rfl⟩
    · rintro ⟨hne, rfl⟩
      have hfind : Table.find? task (outputsOf ss) = some _ := find?_outputsOf.trans (if_neg hne)
      exact List.mem_map.2 ⟨_, Table.mem_of_find? hfind, rfl⟩
  refine Table.eq_of_ascending (hascending ss') (hascending ss) ?_
  rintro ⟨task, keys⟩
  rw [hmem, hmem, Table.keys_ofList_perm (shown_perm hperm task).flatten, ne_eq,
    shown_eq_nil_iff hperm]

/-- Any step can be visited last. -/
theorem exists_perm_last (h : s ∈ ss) : ∃ front, (front ++ [s]).Perm ss := by
  obtain ⟨a, b, rfl⟩ := List.append_of_mem h
  refine ⟨a ++ b, ?_⟩
  exact (List.perm_append_singleton s (a ++ b)).trans List.perm_middle.symm

/-- The values of the step that is visited last are taken. -/
theorem last_outputsOf_append {v : String} {front : List Step} (hs : s.shown? task = some ps)
    (hv : Table.lastValue? k ps = some v) :
    (Table.find? task (outputsOf (front ++ [s]))).bind (Table.find? k) = some v := by
  have hshown : shown task (front ++ [s]) = shown task front ++ [ps] := by
    rw [shown, List.filterMap_append, List.filterMap_cons_some hs]
    rfl
  rw [last_outputsOf, hshown, List.flatten_append, Table.lastValue?_append, List.flatten_singleton,
    hv]
  rfl

/-- Only steps whose values agree may be visited in any order. -/
theorem agree_of_outputsOf_perm (h : ∀ ss', ss'.Perm ss → outputsOf ss' = outputsOf ss)
    (task : String) : Agree (shown task ss) := by
  have hlast : ∀ ps ∈ shown task ss, ∀ k v, Table.lastValue? k ps = some v →
      (Table.find? task (outputsOf ss)).bind (Table.find? k) = some v := by
    intro ps hps k v hv
    obtain ⟨s, hs, hshown⟩ := List.mem_filterMap.1 hps
    obtain ⟨front, hperm⟩ := exists_perm_last hs
    rw [← h _ hperm]
    exact last_outputsOf_append hshown hv
  intro ps hps qs hqs k v u hv hu
  exact Option.some.inj ((hlast ps hps k v hv).symm.trans (hlast qs hqs k u hu))

namespace Resource

theorem execution_visiting (h : ss.Perm r.steps) : (r.visiting ss).execution requested =
    { r.execution requested with outputs := outputsOf ss } := by
  obtain ⟨name, progress⟩ := r
  cases progress with
  | some p => rfl
  | none =>
    obtain rfl : ss = [] := h.eq_nil
    rfl

theorem outputs_execution : (r.execution requested).outputs = outputsOf r.steps := by
  obtain ⟨name, progress⟩ := r
  cases progress with
  | some p => rfl
  | none => rfl

/-- In any order of its steps a resource has the same name, phase and outputs, and each output is
the last value that is shown for it. The values are the same in any order if no two steps of a task
show different ones, and only then. -/
theorem execution_visiting_iff (r : Resource) (requested : String) :
    (∀ ss, ss.Perm r.steps →
      ((r.visiting ss).execution requested).SameShape (r.execution requested) ∧
        ∀ task k, ((r.visiting ss).execution requested).output? task k =
          Table.lastValue? k (shown task ss).flatten) ∧
    ((∀ ss, ss.Perm r.steps → (r.visiting ss).execution requested = r.execution requested) ↔
      ∀ task, Agree (shown task r.steps)) := by
  refine ⟨?_, ?_, ?_⟩
  · intro ss hperm
    rw [execution_visiting hperm]
    refine ⟨⟨rfl, rfl, ?_⟩, fun task k => last_outputsOf⟩
    rw [outputs_execution]
    exact keys_outputsOf_perm hperm
  · intro h
    refine agree_of_outputsOf_perm ?_
    intro ss hperm
    have houtputs : (r.execution requested).outputs = outputsOf r.steps := outputs_execution
    rw [← houtputs, ← h ss hperm, execution_visiting hperm]
  · intro h ss hperm
    rw [execution_visiting hperm, outputsOf_perm h hperm, ← outputs_execution]

/-- A check whose two steps show different answers. -/
def answeredTwice : Resource :=
  ⟨some "wf", some ⟨some "Succeeded",
    [⟨some "check-already-published", some [("data-published", some "yes")]⟩,
      ⟨some "check-already-published", some [("data-published", some "no")]⟩]⟩⟩

/-- What a server sends of such a step. -/
def answerNode (answer : String) : Json :=
  .obj [("displayName", .str "check-already-published"), ("outputs", .obj [("parameters",
    .arr [.obj [("name", .str "data-published"), ("value", .str answer)]])])]

/-- The data are published or not, as the steps of such a check are visited. -/
theorem answeredTwice_reordered :
    resource? (.obj [("metadata", .obj [("name", .str "wf")]), ("status", .obj [
      ("nodes", .obj [("wf-1", answerNode "yes"), ("wf-2", answerNode "no")]),
      ("phase", .str "Succeeded")])]) = some answeredTwice ∧
    answeredTwice.steps.reverse.Perm answeredTwice.steps ∧
    Publish.readAnswer? ((answeredTwice.execution "wf").output? Publish.checkName
      Publish.answerParameter) = some false ∧
    Publish.readAnswer? (((answeredTwice.visiting answeredTwice.steps.reverse).execution
      "wf").output? Publish.checkName Publish.answerParameter) = some true := by
  refine ⟨?_, List.reverse_perm _, ?_, ?_⟩
  · decide +kernel
  · decide +kernel
  · decide +kernel

end Resource

end Server

end RecipeFlow
