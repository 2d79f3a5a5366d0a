import RecipeFlow.Proofs.Run.Session
import RecipeFlow.Proofs.Volume.Locations

/-! What the simulated engine holds for published once recipes' graphs have been submitted to it. It
goes by the directories that are mounted by themselves. A shell recipe publishes through such a
mount; a visualization writes to its directory through a mount of the whole volume, and the engine
does not see it. -/
namespace RecipeFlow

open Dialogue

variable {g : Graph} {r : Recipe} {w : ShellWorkflow} {v : Visualization} {t : Task}

namespace Visualization

/-- No task of a visualization publishes, as the simulated engine sees it. -/
theorem isInner_of_compile (hg : r.compile = .ok g) (hv : r.workflow = .visualization v)
    (ht : t ∈ g.tasks) : t.IsInner := by
  obtain ⟨ss, hplan, rfl⟩ := Recipe.compile_planned hg
  cases hplan with
  | sequential hw => cases hv.symm.trans hw
  | partitioned hw => cases hv.symm.trans hw
  | visualization =>
    obtain ⟨u, hu, hname, hcontainer⟩ := Graph.exists_planned rfl ht
    refine ⟨?_, ?_⟩
    · rw [← hname]
      rcases mem_stages hu with rfl | rfl | rfl
      · show stageConfigName ≠ _
        decide
      · show batchingName ≠ _
        decide
      · show tilingName ≠ _
        decide
    · rw [Task.targets, ← hcontainer, mounts_stages hu]
      rfl

/-- All the same, what a visualization writes is below its recipe's directory. -/
theorem isLocated_of_visualization (hg : r.compile = .ok g)
    (hv : r.workflow = .visualization v) (hid : Recipe.deriveId r.name = .ok r.id) :
    IsLocated r.id g := by
  obtain ⟨ss, hplan, rfl⟩ := Recipe.compile_planned hg
  cases hplan with
  | sequential hw => cases hv.symm.trans hw
  | partitioned hw => cases hv.symm.trans hw
  | visualization => exact isLocated_stages hid

end Visualization

namespace Recipe

/-- What the simulated engine holds for published once a recipe has run. -/
def record (r : Recipe) (published : List String) : List String :=
  match r.workflow with
  | .shell _ => r.deposit published
  | .visualization _ => published

theorem mem_record {published : List String} {id : String} : id ∈ r.record published ↔
    id ∈ published ∨ (r.output = .pvc ∧ (∃ w, r.workflow = .shell w) ∧ r.id = id) := by
  unfold record
  cases r.workflow with
  | shell w => simp [mem_deposit]
  | visualization v => simp

end Recipe

namespace SimulatedEngine

variable {s : SimulatedEngine}

/-- A graph whose tasks have nothing to do with what is published changes nothing, whatever is in
store for it. -/
theorem submit_inner (h : ∀ t ∈ g.tasks, t.IsInner) : (s.submit g).2.volume = s.volume := by
  have hclear : g.task? Publish.clearName = none :=
    List.find?_eq_none.2 fun t ht => by simpa using (h t ht).1
  have hpublished : published g = [] := List.flatMap_eq_nil_iff.2 fun t ht => (h t ht).2
  rw [submit_volume, applyEffects, hclear, hpublished]
  exact ite_self _

theorem submit_record (h : s.expectations = []) (hg : r.compile = .ok g) :
    (s.submit g).2.volume = r.record s.volume := by
  unfold Recipe.record
  cases hw : r.workflow with
  | shell w => exact submit_compiled h hg hw
  | visualization v => exact submit_inner fun t => Visualization.isInner_of_compile hg hw

/-- What is published after recipes have run one after another: besides what was there, the results
of the shell recipes among them. -/
theorem mem_submitAll_compiled {rs : List Recipe} {gs : List Graph} {id : String}
    (h : s.expectations = []) (hgs : rs.mapM Recipe.compile = .ok gs) :
    id ∈ (s.submitAll gs).volume ↔ id ∈ s.volume ∨
      ∃ r ∈ rs, r.output = .pvc ∧ (∃ w, r.workflow = .shell w) ∧ r.id = id := by
  induction rs generalizing s gs with
  | nil =>
    cases hgs
    simp [submitAll]
  | cons r rs ih =>
    rw [List.mapM_cons] at hgs
    obtain ⟨g, hg, hgs⟩ := bind_eq_ok.1 hgs
    obtain ⟨gs, htail, hcons⟩ := bind_eq_ok.1 hgs
    cases hcons
    have hrest := ih (submit_unscripted h g).2.1 htail
    rw [submit_record h hg, Recipe.mem_record] at hrest
    rw [List.exists_mem_cons_iff, ← or_assoc]
    exact hrest

end SimulatedEngine

variable {τ : Type} {resolver : Dataset.Resolver τ} {s : Clocked (SimulatedEngine × τ)}
  {looks : Nat}

theorem Lifecycle.run_submit_state (c : EngineConfig) (g : Graph)
    (s : Clocked (SimulatedEngine × τ)) :
    ((submit c g).run (simulatedWorld resolver) s).2 =
      ⟨((s.state.1.submit g).2, s.state.2), s.now⟩ := by
  show (run _ (ofExcept (s.state.1.submit g).1 >>= _) _).2 = _
  rcases (s.state.1.submit g).1 with f | _ | name <;> rfl

namespace Recipe

/-- The check that comes after a recipe's graph was submitted. -/
theorem run_isBlocked_submitted (h : s.state.1.expectations = []) (hg : r.compile = .ok g)
    (hout : r.output = .pvc) (c c' : EngineConfig) (o : PollOptions) :
    ((Publish.isBlocked (looks + 1) c' o false r).run (simulatedWorld resolver)
      ((Lifecycle.submit c g).run (simulatedWorld resolver) s).2).1 =
        .done (decide (r.id ∈ r.record s.state.1.volume)) := by
  have hnext : (s.state.1.submit g).2.expectations = [] :=
    (SimulatedEngine.submit_unscripted h g).2.1
  rw [Lifecycle.run_submit_state, Publish.run_isBlocked hnext]
  simp [IsRefused, hout, SimulatedEngine.submit_record h hg]

/-- A submission of a recipe's graph, seen from what is published before and after it and from the
answer of the check that comes next. -/
structure Recorded (r : Recipe) (before : List String) (out : Outcome String)
    (after : List String) (blocked : Outcome Bool) : Prop where
  named : ∃ name, out = .done name
  volume : after = r.record before
  /-- The check answers, and it answers yes just if the recipe's results are there. -/
  answered : blocked = .done (decide (r.id ∈ after))
  /-- They are there just if they were before or the recipe runs commands. -/
  found : blocked = .done true ↔ r.id ∈ before ∨ ∃ w, r.workflow = .shell w
  others : ∀ id, id ≠ r.id → (id ∈ after ↔ id ∈ before)

/-- An engine that is not scripted takes whatever a recipe with published output compiles to. Then
the recipe's results are found, if they were not there before, just if it runs commands. -/
theorem recorded_of_compile (hlooks : 0 < looks) (h : s.state.1.expectations = [])
    (hg : r.compile = .ok g) (hout : r.output = .pvc) (c c' : EngineConfig) (o : PollOptions) :
    r.Recorded s.state.1.volume ((Lifecycle.submit c g).run (simulatedWorld resolver) s).1
      ((Lifecycle.submit c g).run (simulatedWorld resolver) s).2.state.1.volume
      ((Publish.isBlocked looks c' o false r).run (simulatedWorld resolver)
        ((Lifecycle.submit c g).run (simulatedWorld resolver) s).2).1 := by
  obtain ⟨looks, rfl⟩ := Nat.exists_eq_add_one_of_ne_zero hlooks.ne'
  obtain ⟨name, hname, -⟩ := Lifecycle.run_submit h c g
  have hvolume : ((Lifecycle.submit c g).run (simulatedWorld resolver) s).2.state.1.volume =
      r.record s.state.1.volume := by
    rw [Lifecycle.run_submit_state]
    exact SimulatedEngine.submit_record h hg
  rw [run_isBlocked_submitted h hg hout, hvolume]
  refine ⟨⟨name, hname⟩, rfl, rfl, ?_, ?_⟩
  · simp [mem_record, hout]
  · intro id hid
    simp [mem_record, hid.symm]

/-- The results of a partitioned recipe are found, beside those of another one. -/
theorem recorded_of_compile_paired :
    0 < 1 ∧ Call.keeping.state.1.expectations = [] ∧ paired.output = .pvc ∧
      ∃ g, paired.compile = .ok g ∧
        ((Lifecycle.submit {} g).run (simulatedWorld (.ofTable [])) Call.keeping).2.state.1.volume =
          ["b", "p-1"] ∧
        ((Publish.isBlocked 1 {} {} false paired).run (simulatedWorld (.ofTable []))
          ((Lifecycle.submit {} g).run (simulatedWorld (.ofTable [])) Call.keeping).2).1 =
            .done true := by
  obtain ⟨g, hg⟩ := exists_compile_paired
  have hunscripted : Call.keeping.state.1.expectations = [] := rfl
  have hrecorded : paired.Recorded Call.keeping.state.1.volume _ _
      ((Publish.isBlocked 1 {} {} false paired).run (simulatedWorld (.ofTable [])) _).1 :=
    recorded_of_compile Nat.one_pos hunscripted hg rfl {} {} {}
  exact ⟨Nat.one_pos, hunscripted, rfl, g, hg, hrecorded.volume.trans (by decide),
    hrecorded.found.2 (.inr ⟨_, rfl⟩)⟩

/-- A visualization's graph is taken, and it writes to its recipe's directory, but then the recipe's
results are not found. -/
theorem submit_tiled_unfound :
    tiled.output = .pvc ∧ ∃ g, tiled.compile = .ok g ∧ Visualization.IsLocated tiled.id g ∧
      (∃ name, ((Lifecycle.submit {} g).run (simulatedWorld (.ofTable []))
        ⟨({}, ()), ⟨0⟩⟩).1 = .done name) ∧
      ((Lifecycle.submit {} g).run (simulatedWorld (.ofTable []))
        ⟨({}, ()), ⟨0⟩⟩).2.state.1.volume = [] ∧
      ((Publish.isBlocked 1 {} {} false tiled).run (simulatedWorld (.ofTable []))
        ((Lifecycle.submit {} g).run (simulatedWorld (.ofTable [])) ⟨({}, ()), ⟨0⟩⟩).2).1 =
          .done false := by
  obtain ⟨g, hg⟩ : ∃ g, tiled.compile = .ok g := ⟨_, rfl⟩
  have hunscripted : ({} : SimulatedEngine).expectations = [] := rfl
  refine ⟨rfl, g, hg, Visualization.isLocated_of_visualization hg rfl (by decide +kernel),
    (Lifecycle.run_submit hunscripted {} g).imp fun _ hnamed => hnamed.1, ?_, ?_⟩
  · rw [Lifecycle.run_submit_state]
    exact SimulatedEngine.submit_record hunscripted hg
  · exact run_isBlocked_submitted hunscripted hg rfl {} {} {}

end Recipe

end RecipeFlow
