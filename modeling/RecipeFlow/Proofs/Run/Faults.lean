import RecipeFlow.Engine.Server
import RecipeFlow.Proofs.Run.Volume
import RecipeFlow.Recipe.Validate

/-! The faults of runs. What a check without a run has let pass does not fail for what a recipe
says: the run has faults of the engine and of executions, or finds that its results are there. -/
namespace RecipeFlow

open Dialogue

/-- A fault that an engine raises. -/
def Fault.IsOfEngine : Fault → Prop
  | submission .. | engine .. => True
  | config .. | validation .. | recipeNotFound .. | unsupportedInput .. | alreadyPublished ..
  | execution .. | resolution .. => False

/-- A fault that a run may have for which nothing is wrong with its recipe. -/
def Fault.IsOfRun : Fault → Prop
  | alreadyPublished .. | submission .. | execution .. | engine .. => True
  | config .. | validation .. | recipeNotFound .. | unsupportedInput .. | resolution .. => False

theorem Fault.IsOfEngine.isOfRun {f : Fault} (h : f.IsOfEngine) : f.IsOfRun := by
  cases f with
  | submission | engine => trivial
  | config | validation | recipeNotFound | unsupportedInput | alreadyPublished | execution
  | resolution => exact h.elim

/-- An answer that, if it is a fault, is one that an engine raises. -/
def Exchange.IsProper : Exchange → Prop
  | ⟨.submit .., a⟩ => ∀ f, a = .error f → f.IsOfEngine
  | ⟨.find .., a⟩ => ∀ f, a = .error f → f.IsOfEngine
  | ⟨.delete .., a⟩ => ∀ f, a = .error f → f.IsOfEngine
  | ⟨.list _, _⟩ | ⟨.sleep _, _⟩ | ⟨.clock, _⟩ => True

namespace Dialogue

variable {α β : Type} {d : Dialogue α} {k : α → Dialogue β}

/-- As long as the engine's faults are those of an engine, the program's are those of a run. -/
def FailsInRun (d : Dialogue α) : Prop :=
  ∀ es f, Runs d es (.failed f) → (∀ x ∈ es, x.IsProper) → f.IsOfRun

theorem failsInRun_done (a : α) : FailsInRun (.done a) := by
  intro es f h
  cases (runs_done.1 h).2

theorem failsInRun_stalled : FailsInRun (.stalled : Dialogue α) := by
  intro es f h
  cases (runs_stalled.1 h).2

theorem failsInRun_failed {f : Fault} (hf : f.IsOfRun) : FailsInRun (.failed f : Dialogue α) := by
  intro es f' h _
  cases (runs_failed.1 h).2
  exact hf

theorem failsInRun_bind (hd : FailsInRun d) (hk : ∀ a, FailsInRun (k a)) :
    FailsInRun (d >>= k) := by
  intro es f h hes
  rcases runs_bind.1 h with ⟨a, pre, post, rfl, -, hpost⟩ | ⟨f', hf, hd'⟩ | ⟨hf, -⟩
  · exact hk a post f hpost fun x hx => hes x (List.mem_append_right pre hx)
  · cases hf
    exact hd es f hd' hes
  · cases hf

/-- After a question it matters how the program goes on behind each answer that may be. -/
theorem failsInRun_ask {q : Query} {next : q.Answer → Dialogue α}
    (h : ∀ a, Exchange.IsProper ⟨q, a⟩ → FailsInRun (next a)) : FailsInRun (.ask q next) := by
  intro es f hr hes
  obtain ⟨a, rest, rfl, hrest⟩ := runs_ask.1 hr
  obtain ⟨ha, hes⟩ := List.forall_mem_cons.1 hes
  exact h a ha rest f hrest hes

end Dialogue

variable {c : EngineConfig} {g : Graph} {looks : Nat} {name id : String} {r : Recipe}

namespace Lifecycle

variable {o : PollOptions} {started : Duration}

theorem failsInRun_submit : FailsInRun (submit c g) := by
  refine failsInRun_ask fun a ha => ?_
  rcases a with f | _ | n
  · exact failsInRun_failed (ha f rfl).isOfRun
  · exact failsInRun_failed trivial
  · exact failsInRun_done n

theorem isOfRun_verdict {info : Option Execution} {f : Fault} (h : verdict name info = .failed f) :
    f.IsOfRun := by
  unfold verdict at h
  grind [Fault.IsOfRun, failure]

theorem failsInRun_watch : FailsInRun (watch c name o started looks) := by
  induction looks with
  | zero => exact failsInRun_stalled
  | succ looks ih =>
    rw [watch_succ]
    refine failsInRun_ask fun _ _ => failsInRun_ask fun a ha => ?_
    cases a with
    | error f => exact failsInRun_failed (ha f rfl).isOfRun
    | ok info =>
      dsimp only
      cases hv : verdict name info with
      | succeeded e => exact failsInRun_done e
      | failed f => exact failsInRun_failed (isOfRun_verdict hv)
      | running =>
        cases o.deadline with
        | none => exact ih
        | some d =>
          refine failsInRun_ask fun now _ => ?_
          split
          · exact failsInRun_failed trivial
          · exact ih

theorem failsInRun_wait : FailsInRun (wait looks c name o) :=
  failsInRun_ask fun _ _ => failsInRun_watch

theorem failsInRun_runToCompletion : FailsInRun (runToCompletion looks c g o) :=
  failsInRun_bind failsInRun_submit fun _ => failsInRun_wait

end Lifecycle

namespace Publish

variable {o : PollOptions} {overwrite : Bool}

theorem failsInRun_discard : FailsInRun (discard name c) :=
  failsInRun_ask fun _ _ => failsInRun_done ()

theorem failsInRun_isPublished : FailsInRun (isPublished looks c o id) := by
  refine failsInRun_bind Lifecycle.failsInRun_runToCompletion fun e => ?_
  refine failsInRun_bind failsInRun_discard fun _ => ?_
  cases readAnswer? (e.output? checkName answerParameter) with
  | none => exact failsInRun_failed trivial
  | some b => exact failsInRun_done b

theorem failsInRun_remove : FailsInRun (remove looks c o id) :=
  failsInRun_bind Lifecycle.failsInRun_runToCompletion fun _ => failsInRun_discard

theorem failsInRun_isBlocked : FailsInRun (isBlocked looks c o overwrite r) := by
  unfold isBlocked
  split
  · exact failsInRun_bind failsInRun_remove fun _ => failsInRun_done false
  · split
    · exact failsInRun_isPublished
    · exact failsInRun_done false

end Publish

namespace Recipe

variable {o : SubmitOptions} {files : Files} {dir : String}

theorem failsInRun_launch : FailsInRun (launch looks c o g) := by
  refine failsInRun_bind Lifecycle.failsInRun_submit fun n => ?_
  split
  · exact failsInRun_bind Lifecycle.failsInRun_wait fun _ => failsInRun_done n
  · exact failsInRun_done n

/-- A recipe that has a graph is run without a fault of its own. -/
theorem failsInRun_start (hg : r.compile = .ok g) : FailsInRun (start looks c o r) := by
  refine failsInRun_bind Publish.failsInRun_isBlocked fun b => ?_
  rw [hg]
  split
  · exact failsInRun_failed trivial
  · exact failsInRun_launch

/-- Behind its gate a recipe that has a graph submits this graph or none. -/
theorem submissions_started {es : List Exchange} {out : Outcome String}
    (h : Started looks c o r es out) (hg : r.compile = .ok g) :
    submissions es = Publish.gate o.overwrite r ∨
      submissions es = Publish.gate o.overwrite r ++ [g] := by
  cases h with
  | launched hgate hg' hlaunch =>
    cases hg.symm.trans hg'
    obtain ⟨a, rest, rfl, hrest⟩ := runs_launch hlaunch
    right
    rw [submissions_append, submissions_cons_some rfl, hrest, Publish.isBlocked_submissions hgate]
  | uncompiled _ hg' => cases hg.symm.trans hg'
  | blocked hgate => exact .inl (Publish.isBlocked_submissions hgate)
  | failed hgate => exact .inl (Publish.isBlocked_submissions hgate)
  | stalled hgate => exact .inl (Publish.isBlocked_submissions hgate)

theorem validate_eq_ok (h : validate files dir = .ok r) :
    ofDirectory files dir = .ok r ∧ (r.hasDatasets = false → ∃ g, r.compile = .ok g) := by
  obtain ⟨r', hload, h⟩ := bind_eq_ok.1 h
  split at h
  · next hsome =>
    cases h
    exact ⟨hload, fun hnone => absurd hsome (by simp [hnone])⟩
  · obtain ⟨g, hg, h⟩ := bind_eq_ok.1 h
    cases h
    exact ⟨hload, fun _ => ⟨g, hg⟩⟩

/-- Where there are no datasets, loading asks nothing. -/
theorem loadResolved_eq_pure {resolvable : Bool} (h : ofDirectory files dir = .ok r)
    (hnone : r.hasDatasets = false) : loadResolved files resolvable dir = pure r := by
  rw [loadResolved, h]
  show (if !r.hasDatasets then pure r else _) = _
  rw [hnone]
  rfl

theorem submit_eq_start {resolvable : Bool} (h : ofDirectory files dir = .ok r)
    (hnone : r.hasDatasets = false) :
    submit looks files resolvable c o dir = start looks c o r := by
  rw [submit, loadResolved_eq_pure h hnone]
  rfl

end Recipe

/-- A world whose engine raises faults of an engine only. -/
structure World.IsProper {σ : Type} (w : World σ) : Prop where
  submit : ∀ g c s f, (w.answer (.submit g c) s).1 = .error f → f.IsOfEngine
  find : ∀ n c s f, (w.answer (.find n c) s).1 = .error f → f.IsOfEngine
  delete : ∀ n c s f, (w.answer (.delete n c) s).1 = .error f → f.IsOfEngine

variable {α σ τ : Type} {w : World σ}

theorem World.IsProper.answer (h : w.IsProper) (q : Query) (s : σ) :
    Exchange.IsProper ⟨q, (w.answer q s).1⟩ := by
  cases q with
  | submit g c => exact h.submit g c s
  | find n c => exact h.find n c s
  | delete n c => exact h.delete n c s
  | list | sleep | clock => trivial

theorem World.IsProper.transcript (h : w.IsProper) (d : Dialogue α) (s : σ) :
    ∀ x ∈ d.transcript w s, x.IsProper := by
  induction d generalizing s with
  | done | failed | stalled => exact List.forall_mem_nil _
  | ask q next ih => exact List.forall_mem_cons.2 ⟨h.answer q s, ih _ _⟩

/-- The simulated engine only rejects graphs and fails to delete. -/
theorem isProper_simulatedWorld (resolver : Dataset.Resolver τ) :
    (simulatedWorld resolver).IsProper where
  submit g c s f h := by
    replace h : (s.state.1.submit g).1 = .error f := h
    unfold SimulatedEngine.submit at h
    dsimp only at h
    split at h
    · cases h
      trivial
    · cases h
    · cases h
  find n c s f h := by
    replace h : (s.state.1.find n).1 = .error f := h
    unfold SimulatedEngine.find at h
    dsimp only at h
    split at h
    · cases h
    · cases h
  delete n c s f h := by
    replace h : (s.state.1.delete n).1 = .error f := h
    unfold SimulatedEngine.delete at h
    dsimp only at h
    split at h
    · cases h
      trivial
    · cases h

namespace Server

theorem isOfEngine_readSubmitted {a : Except Http.Failure Http.Response} {f : Fault}
    (h : readSubmitted a = .error f) : f.IsOfEngine := by
  unfold readSubmitted at h
  split at h
  · cases h
    trivial
  · split at h
    · cases h
      trivial
    · split at h
      · cases h
      · cases h
        trivial

theorem isOfEngine_mapError_failed {a : Except Http.Failure α} {f : Fault}
    (h : a.mapError failed = .error f) : f.IsOfEngine := by
  cases a with
  | ok a => cases h
  | error e =>
    cases h
    trivial

/-- Whatever comes back over the network, it is the server that is at fault. -/
theorem isProper_world (net : Http.Network σ) (resolver : Dataset.Resolver σ) :
    (World.ofParts (engine net) resolver).IsProper where
  submit g c s f h := by
    simp only [World.ofParts, engine] at h
    exact isOfEngine_readSubmitted h
  find n c s f h := by
    simp only [World.ofParts, engine] at h
    exact isOfEngine_mapError_failed h
  delete n c s f h := by
    simp only [World.ofParts, engine] at h
    exact isOfEngine_mapError_failed h

end Server

/-- A recipe without datasets that was found valid is run without a fault of its own: a run fails as
engines and executions do, or because its results are there. Besides the graphs that look for its
results or clear them, it submits only the one that it was found to have. -/
theorem Recipe.submit_of_validate {files : Files} {dir : String} {r : Recipe} (hw : w.IsProper)
    (hvalid : validate files dir = .ok r) (hnone : r.hasDatasets = false) (s : σ)
    (resolvable : Bool) (looks : Nat) (c : EngineConfig) (o : SubmitOptions) :
    (∀ f, ((submit looks files resolvable c o dir).run w s).1 = .failed f → f.IsOfRun) ∧
      ∃ g, r.compile = .ok g ∧
        (submissions ((submit looks files resolvable c o dir).transcript w s) =
            Publish.gate o.overwrite r ∨
          submissions ((submit looks files resolvable c o dir).transcript w s) =
            Publish.gate o.overwrite r ++ [g]) := by
  obtain ⟨hload, hcompile⟩ := validate_eq_ok hvalid
  obtain ⟨g, hg⟩ := hcompile hnone
  have hruns := runs_transcript w (start looks c o r) s
  rw [submit_eq_start hload hnone]
  refine ⟨fun f hf => ?_, g, hg, submissions_started (started_of_runs hruns) hg⟩
  rw [hf] at hruns
  exact failsInRun_start hg _ f hruns (hw.transcript _ s)

namespace Recipe

/-- A directory with a recipe that copies its only input. -/
def copying : Files where
  read path :=
    if path = "d/meta.yml" then
      .ok ("name: r\ninput:\n  params:\n  - type: file_system\n    value: /data/a.nc\n" ++
        "workflow:\n  type: shell\n")
    else if path = "d/recipe.sh" then .ok "cp $INPUT_FILE $OUTPUT_FILE"
    else .error .notFound
  isFile _ := false
  subdirectories? _ := none

/-- The recipe of `copying`. -/
def copied : Recipe where
  name := "r"
  id := "r"
  image := none
  inputs := [⟨.fileSystem, "/data/a.nc", none, []⟩]
  output := .pvc
  workflow := .shell ⟨"d/recipe.sh", ["cp $INPUT_FILE $OUTPUT_FILE"], {}⟩
  directory := "d"

theorem validate_copying : validate copying "d" = .ok copied := by
  decide +kernel

/-- Where its data are, it is refused; where no server answers, it is the server's fault. -/
theorem submit_of_validate_copied :
    validate copying "d" = .ok copied ∧ copied.hasDatasets = false ∧
      (∃ f, ((submit 1 copying false {} {} "d").run
        (simulatedWorld (.ofTable [])) seeded).1 = .failed f ∧ f.IsOfRun) ∧
      ∃ f, ((submit 1 copying false {} {} "d").run
        (.ofParts (Server.engine (.silent Unit)) (.ofTable [])) ⟨(), ⟨0⟩⟩).1 = .failed f ∧
          f.IsOfRun := by
  have hstart : submit 1 copying false {} {} "d" = start 1 {} {} copied :=
    submit_eq_start (validate_eq_ok validate_copying).1 rfl
  refine ⟨validate_copying, rfl, ?_, ?_⟩
  · have hrun : ((submit 1 copying false {} {} "d").run
        (simulatedWorld (.ofTable [])) seeded).1 = .failed (.published "r") := by
      rw [hstart]
      decide +kernel
    exact ⟨_, hrun, (submit_of_validate (isProper_simulatedWorld _) validate_copying rfl seeded
      false 1 {} {}).1 _ hrun⟩
  · have hrun : ((submit 1 copying false {} {} "d").run
        (.ofParts (Server.engine (.silent Unit)) (.ofTable [])) ⟨(), ⟨0⟩⟩).1 =
          .failed (Server.refused ("Problem with submitting workflow: error sending request for " ++
            "url (http://localhost:2746/api/v1/workflows/argo-helm)")) := by
      rw [hstart]
      decide +kernel
    exact ⟨_, hrun, (submit_of_validate (Server.isProper_world _ _) validate_copying rfl _
      false 1 {} {}).1 _ hrun⟩

end Recipe

end RecipeFlow
