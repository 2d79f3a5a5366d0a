import RecipeFlow.Engine.Simulated
import RecipeFlow.Proofs.Run.Submission
import RecipeFlow.Run.World

/-! What runs do to the volume of the simulated engine: only submissions change it. -/
namespace RecipeFlow

open Dialogue

variable {α τ : Type} {s t : SimulatedEngine} {g : Graph} {id : String}

namespace SimulatedEngine

/-- Two states that hold the same data and have the same in store for what is submitted. -/
structure Agrees (s t : SimulatedEngine) : Prop where
  volume : s.volume = t.volume
  expectations : s.expectations = t.expectations

theorem Agrees.trans {u : SimulatedEngine} (h : Agrees s t) (h' : Agrees t u) : Agrees s u :=
  ⟨h.volume.trans h'.volume, h.expectations.trans h'.expectations⟩

/-- Submits graphs one after another. -/
def submitAll (s : SimulatedEngine) (gs : List Graph) : SimulatedEngine :=
  gs.foldl (fun s g => (s.submit g).2) s

/-- Whether an execution of a graph will act on the volume: it is named, and ends well. -/
def takesEffect (g : Graph) (s : SimulatedEngine) : Bool :=
  let e := (takeFirst g.generateName s.expectations).1.getD ⟨"", .named, [.succeeded]⟩
  e.reception = .named ∧ e.phases.getLast?.getD .succeeded = .succeeded

theorem seed_congr (h : s.volume = t.volume) (id : String) :
    (s.seed id).volume = (t.seed id).volume := by
  unfold seed
  rw [h]
  split
  · exact h
  · rfl

theorem applyEffects_congr (h : s.volume = t.volume) (g : Graph) :
    (s.applyEffects g).volume = (t.applyEffects g).volume := by
  have hseed : ∀ (ids : List String) {s t : SimulatedEngine}, s.volume = t.volume →
      (ids.foldl (fun s id => s.seed id) s).volume =
        (ids.foldl (fun s id => s.seed id) t).volume := by
    intro ids
    induction ids with
    | nil => exact id
    | cons id ids ih => exact fun h => ih (seed_congr h id)
  unfold applyEffects
  apply hseed
  split
  · exact congrArg (List.filter _) h
  · exact h

theorem submit_expectations (g : Graph) (s : SimulatedEngine) :
    (s.submit g).2.expectations = (takeFirst g.generateName s.expectations).2 := by
  have hseed : ∀ (ids : List String) (s : SimulatedEngine),
      (ids.foldl (fun s id => s.seed id) s).expectations = s.expectations := by
    intro ids
    induction ids with
    | nil => exact fun _ => rfl
    | cons id ids ih =>
      intro s
      rw [List.foldl_cons, ih]
      unfold seed
      split <;> rfl
  unfold submit
  dsimp only
  split
  · rfl
  · rfl
  · simp only [start]
    split
    · simp only [applyEffects, hseed]
      split <;> rfl
    · rfl

/-- The volume after a submission: the graph acts at once, if it will at all. -/
theorem submit_volume (g : Graph) (s : SimulatedEngine) :
    (s.submit g).2.volume = if s.takesEffect g then (s.applyEffects g).volume else s.volume := by
  unfold submit
  dsimp only
  split
  · next hr => simp [takesEffect, hr]
  · next hr => simp [takesEffect, hr]
  · next hr =>
    simp only [takesEffect, hr, start, true_and, decide_eq_true_eq]
    split
    · refine applyEffects_congr ?_ g
      rfl
    · rfl

theorem Agrees.submit (h : Agrees s t) (g : Graph) : Agrees (s.submit g).2 (t.submit g).2 := by
  refine ⟨?_, ?_⟩
  · have he : s.takesEffect g = t.takesEffect g := by simp only [takesEffect, h.expectations]
    rw [submit_volume, submit_volume, he, h.volume, applyEffects_congr h.volume]
  · rw [submit_expectations, submit_expectations, h.expectations]

theorem Agrees.submitAll (h : Agrees s t) (gs : List Graph) :
    Agrees (s.submitAll gs) (t.submitAll gs) := by
  induction gs generalizing s t with
  | nil => exact h
  | cons g gs ih => exact ih (h.submit g)

/-- Looking at published data changes none. -/
theorem submit_checkGraph (id : String) (s : SimulatedEngine) :
    (s.submit (Publish.checkGraph id)).2.volume = s.volume := by
  rw [submit_volume]
  split
  · rfl
  · rfl

/-- Clearing takes away a recipe's data and no other. -/
theorem submit_clearGraph (id : String) (s : SimulatedEngine) :
    (s.submit (Publish.clearGraph id)).2.volume =
      if s.takesEffect (Publish.clearGraph id) then s.volume.filter (· ≠ id) else s.volume :=
  submit_volume _ s

end SimulatedEngine

/-- The world of a simulated engine and a resolver of datasets with a state of its own. -/
abbrev simulatedWorld (resolver : Dataset.Resolver τ) : World (Clocked (SimulatedEngine × τ)) :=
  .ofParts SimulatedEngine.engine.beside resolver.beside

variable {resolver : Dataset.Resolver τ}

theorem answer_agrees {q : Query} (hq : q.submitted? = none) (s : Clocked (SimulatedEngine × τ)) :
    ((simulatedWorld resolver).answer q s).2.state.1.Agrees s.state.1 := by
  cases q with
  | submit g c => cases hq
  | find name c =>
    simp only [World.ofParts, Engine.beside, SimulatedEngine.engine, SimulatedEngine.find]
    cases Table.find? name s.state.1.executions with
    | none => exact ⟨rfl, rfl⟩
    | some e => exact ⟨rfl, rfl⟩
  | delete name c =>
    simp only [World.ofParts, Engine.beside, SimulatedEngine.engine, SimulatedEngine.delete]
    split
    · exact ⟨rfl, rfl⟩
    · exact ⟨rfl, rfl⟩
  | list | sleep | clock => exact ⟨rfl, rfl⟩

/-- Of all that is asked only submissions change the volume. -/
theorem after_agrees (s : Clocked (SimulatedEngine × τ)) (es : List Exchange) :
    ((simulatedWorld resolver).after s es).state.1.Agrees
      (s.state.1.submitAll (submissions es)) := by
  have hall : ∀ (s : Clocked (SimulatedEngine × τ)) (t : SimulatedEngine), s.state.1.Agrees t →
      ((simulatedWorld resolver).after s es).state.1.Agrees (t.submitAll (submissions es)) := by
    induction es with
    | nil => exact fun s t h => h
    | cons x es ih =>
      intro s t h
      cases hx : x.query.submitted? with
      | none =>
        rw [submissions_cons_none hx]
        exact ih _ t ((answer_agrees hx s).trans h)
      | some g =>
        rw [submissions_cons_some hx]
        refine ih _ _ ?_
        obtain ⟨q, a⟩ := x
        cases q with
        | submit g' c =>
          cases hx
          exact h.submit g
        | find | delete | list | sleep | clock => cases hx
  exact hall s s.state.1 ⟨rfl, rfl⟩

theorem run_agrees (d : Dialogue α) (s : Clocked (SimulatedEngine × τ)) :
    (d.run (simulatedWorld resolver) s).2.state.1.Agrees
      (s.state.1.submitAll (submissions (d.transcript (simulatedWorld resolver) s))) := by
  rw [run_state]
  exact after_agrees s _

namespace Recipe

variable {files : Files} {resolvable : Bool} {looks : Nat} {c : EngineConfig} {o : SubmitOptions}
  {dir : String} {r : Recipe} {f : Fault}

theorem gate_volume (overwrite : Bool) (r : Recipe) (s : SimulatedEngine) :
    (s.submitAll (Publish.gate overwrite r)).volume =
      if overwrite && s.takesEffect (Publish.clearGraph r.id) then s.volume.filter (· ≠ r.id)
      else s.volume := by
  cases overwrite with
  | true =>
    rw [Bool.true_and]
    exact SimulatedEngine.submit_clearGraph r.id s
  | false =>
    simp only [Publish.gate, Bool.false_eq_true, if_false, Bool.false_and]
    split
    · exact SimulatedEngine.submit_checkGraph r.id s
    · rfl

/-- A recipe that has no graph costs no published data but, with consent, its own: they are removed
before the graph is made. -/
theorem submit_uncompiled_volume (s : Clocked (SimulatedEngine × τ))
    (hload : ((loadResolved files resolvable dir).run (simulatedWorld resolver) s).1 = .done r)
    (hr : r.compile = .error f) :
    ((submit looks files resolvable c o dir).run (simulatedWorld resolver) s).2.state.1.volume =
      if o.overwrite && s.state.1.takesEffect (Publish.clearGraph r.id) then
        s.state.1.volume.filter (· ≠ r.id)
      else s.state.1.volume := by
  have hsub : submissions ((submit looks files resolvable c o dir).transcript
      (simulatedWorld resolver) s) = Publish.gate o.overwrite r := by
    have hlisting := loadResolved_asksOnly.of_runs
      (runs_transcript (simulatedWorld resolver) (loadResolved files resolvable dir) s)
    unfold submit
    rw [transcript_bind, hload, submissions_append, submissions_listing hlisting, List.nil_append]
    exact uncompiled_submissions (started_of_runs (runs_transcript _ _ _)) hr
  rw [(run_agrees _ s).volume, hsub, gate_volume]

/-- A directory with a recipe whose only input cannot be fetched. -/
def unfetchable : Files where
  read path :=
    if path = "d/meta.yml" then
      .ok ("name: r\ninput:\n  params:\n  - type: x\n    value: v\n" ++
        "workflow:\n  type: shell\n")
    else if path = "d/recipe.sh" then .ok "true"
    else .error .notFound
  isFile _ := false
  subdirectories? _ := none

/-- An engine on whose volume the recipe's data are. -/
def seeded : Clocked (SimulatedEngine × Unit) :=
  ⟨(SimulatedEngine.seed "r" {}, ()), ⟨0⟩⟩

/-- The recipe of `unfetchable`. -/
def unfetched : Recipe where
  name := "r"
  id := "r"
  image := none
  inputs := [⟨.unknown "x", "v", none, []⟩]
  output := .pvc
  workflow := .shell ⟨"d/recipe.sh", ["true"], {}⟩
  directory := "d"

theorem submit_uncompiled_volume_unfetchable :
    ((loadResolved unfetchable false "d").run (simulatedWorld (.ofTable [])) seeded).1 =
        .done unfetched ∧
      unfetched.compile = .error (.unsupported "x" "v") ∧
      ((submit 1 unfetchable false {} {} "d").run
        (simulatedWorld (.ofTable [])) seeded).2.state.1.volume = ["r"] := by
  have hload : ((loadResolved unfetchable false "d").run
      (simulatedWorld (.ofTable [])) seeded).1 = .done unfetched := by decide +kernel
  have hr : unfetched.compile = .error (.unsupported "x" "v") := by decide +kernel
  exact ⟨hload, hr, (submit_uncompiled_volume seeded hload hr).trans (by decide +kernel)⟩

/-- With consent the data are gone although the run ends with the fault of the compilation. -/
theorem overwrite_removes_uncompiled :
    unfetched.compile = .error (.unsupported "x" "v") ∧
      ((submit 1 unfetchable false {} { overwrite := true } "d").run
        (simulatedWorld (.ofTable [])) seeded).1 = .failed (.unsupported "x" "v") ∧
      seeded.state.1.volume = ["r"] ∧
      ((submit 1 unfetchable false {} { overwrite := true } "d").run
        (simulatedWorld (.ofTable [])) seeded).2.state.1.volume = [] := by
  refine ⟨?_, ?_, ?_, ?_⟩ <;> decide +kernel

end Recipe

end RecipeFlow
