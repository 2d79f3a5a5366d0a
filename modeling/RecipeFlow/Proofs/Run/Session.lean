import RecipeFlow.Proofs.Compile.Effects
import RecipeFlow.Proofs.Run.Faults
import RecipeFlow.Proofs.Table

/-! Sessions with the simulated engine: which calls are refused, and what is published behind each
of them. -/
namespace RecipeFlow

open Dialogue

theorem Output.isQueryable_iff {o : Output} : o.isQueryable = true ↔ o = .pvc := by
  cases o <;> decide

/-- A recipe is refused if its results are published, and are not to be replaced. -/
def Recipe.IsRefused (r : Recipe) (overwrite : Bool) (published : List String) : Prop :=
  r.output = .pvc ∧ overwrite = false ∧ r.id ∈ published

instance (r : Recipe) (overwrite : Bool) (published : List String) :
    Decidable (r.IsRefused overwrite published) :=
  inferInstanceAs (Decidable (_ ∧ _ ∧ _))

/-- What is published once a recipe has run. -/
def Recipe.deposit (r : Recipe) (published : List String) : List String :=
  if r.output = .pvc ∧ r.id ∉ published then published ++ [r.id] else published

namespace SimulatedEngine

variable {s : SimulatedEngine} {g : Graph} {r : Recipe} {w : ShellWorkflow}

/-- With nothing in store for it a graph is named, and it takes effect. -/
theorem submit_unscripted (h : s.expectations = []) (g : Graph) :
    s.takesEffect g = true ∧ (s.submit g).2.expectations = [] ∧
      ∃ name, (s.submit g).1 = .ok (some name) ∧ Table.find? name (s.submit g).2.executions =
        some ⟨[.succeeded], .succeeded, outputsOf g s⟩ := by
  refine ⟨?_, ?_, ?_⟩
  · simp [takesEffect, h, takeFirst]
  · rw [submit_expectations, h, takeFirst]
  · refine ⟨g.generateName ++ Text.padded 5 (s.counter + 1), ?_, ?_⟩
    · simp only [submit, h, takeFirst]
      rfl
    · simp only [submit, h, takeFirst, start]
      exact Table.find?_insert.trans (if_pos rfl)

theorem submitAll_unscripted (h : s.expectations = []) (gs : List Graph) :
    (s.submitAll gs).expectations = [] := by
  induction gs generalizing s with
  | nil => exact h
  | cons g gs ih => exact ih (submit_unscripted h g).2.1

theorem submit_compiled (h : s.expectations = []) (hg : r.compile = .ok g)
    (hw : r.workflow = .shell w) : (s.submit g).2.volume = r.deposit s.volume := by
  obtain ⟨hact, -⟩ := submit_unscripted h g
  -- Nothing is cleared, so the volume only gains what the graph publishes.
  rw [submit_volume, if_pos hact, applyEffects, task?_clearName_of_compile hg hw,
    published_of_compile hg hw]
  unfold Recipe.deposit
  grind [seed]

end SimulatedEngine

variable {τ : Type} {resolver : Dataset.Resolver τ} {s : Clocked (SimulatedEngine × τ)}
  {c : EngineConfig} {g : Graph} {looks : Nat} {name : String} {o : PollOptions} {r : Recipe}

namespace Lifecycle

theorem run_submit (h : s.state.1.expectations = []) (c : EngineConfig) (g : Graph) :
    ∃ name, ((submit c g).run (simulatedWorld resolver) s).1 = .done name ∧
      Table.find? name ((submit c g).run (simulatedWorld resolver) s).2.state.1.executions =
        some ⟨[.succeeded], .succeeded, SimulatedEngine.outputsOf g s.state.1⟩ := by
  obtain ⟨-, -, name, hname, hfound⟩ := SimulatedEngine.submit_unscripted h g
  have hrun : (submit c g).run (simulatedWorld resolver) s =
      (.done name, ⟨((s.state.1.submit g).2, s.state.2), s.now⟩) := by
    show run _ (ofExcept (s.state.1.submit g).1 >>= _) _ = _
    rw [hname]
    rfl
  rw [hrun]
  exact ⟨name, rfl, hfound⟩

/-- An execution that will be seen to have succeeded is waited for in one look. -/
theorem run_wait {outputs : Table (Table String)}
    (h : Table.find? name s.state.1.executions = some ⟨[.succeeded], .succeeded, outputs⟩) :
    ((wait (looks + 1) c name o).run (simulatedWorld resolver) s).1 =
      .done ⟨name, some .succeeded, outputs⟩ := by
  show ((watch c name o s.now (looks + 1)).run (simulatedWorld resolver) s).1 = _
  -- Sleeping only moves the clock, so the first look meets the execution as it is now.
  have hfind : (s.state.1.find name).1 = .ok (some ⟨name, some .succeeded, outputs⟩) := by
    rw [SimulatedEngine.find, h]
    rfl
  have hanswer : ((simulatedWorld resolver).answer (.find name c)
      ((simulatedWorld resolver).answer (.sleep o.interval) s).2).1 = _ := hfind
  rw [watch_succ, run, run, hanswer]
  rfl

theorem run_runToCompletion (h : s.state.1.expectations = []) (c : EngineConfig) (g : Graph)
    (o : PollOptions) : ∃ name,
      ((runToCompletion (looks + 1) c g o).run (simulatedWorld resolver) s).1 =
        .done ⟨name, some .succeeded, SimulatedEngine.outputsOf g s.state.1⟩ := by
  obtain ⟨name, hname, hfound⟩ := run_submit h c g
  refine ⟨name, ?_⟩
  rw [runToCompletion, run_bind, hname]
  exact run_wait hfound

end Lifecycle

theorem run_expectations {α : Type} (d : Dialogue α) (h : s.state.1.expectations = []) :
    (d.run (simulatedWorld resolver) s).2.state.1.expectations = [] := by
  rw [(run_agrees d s).expectations]
  exact SimulatedEngine.submitAll_unscripted h _

namespace Publish

/-- What a check outputs is read as what it is about. -/
theorem readAnswer?_outputsOf (t : SimulatedEngine) (name : String) (p : Option Phase)
    (id : String) : readAnswer? ((⟨name, p, SimulatedEngine.outputsOf (checkGraph id) t⟩ :
      Execution).output? checkName answerParameter) = some (t.isPublished id) := by
  show readAnswer? (some (if t.isPublished id then "yes" else "no")) = _
  cases t.isPublished id <;> decide

theorem run_isPublished (h : s.state.1.expectations = []) (c : EngineConfig) (o : PollOptions)
    (id : String) : ((isPublished (looks + 1) c o id).run (simulatedWorld resolver) s).1 =
      .done (s.state.1.isPublished id) := by
  obtain ⟨name, hname⟩ := Lifecycle.run_runToCompletion h c (checkGraph id) o
  rw [isPublished, run_bind, hname]
  dsimp only
  rw [run_bind]
  simp only [readAnswer?_outputsOf]
  rfl

theorem run_remove (h : s.state.1.expectations = []) (c : EngineConfig) (o : PollOptions)
    (id : String) :
    ((remove (looks + 1) c o id).run (simulatedWorld resolver) s).1 = .done () := by
  obtain ⟨name, hname⟩ := Lifecycle.run_runToCompletion h c (clearGraph id) o
  rw [remove, run_bind, hname]
  rfl

theorem run_isBlocked (h : s.state.1.expectations = []) (c : EngineConfig) (o : PollOptions)
    (overwrite : Bool) (r : Recipe) :
    ((isBlocked (looks + 1) c o overwrite r).run (simulatedWorld resolver) s).1 =
      .done (decide (r.IsRefused overwrite s.state.1.volume)) := by
  unfold isBlocked
  cases overwrite with
  | true =>
    have hfree : ¬ r.IsRefused true s.state.1.volume := fun hr => nomatch hr.2.1
    rw [if_pos rfl, run_bind, run_remove h c o r.id, decide_eq_false hfree]
    rfl
  | false =>
    rw [if_neg Bool.false_ne_true]
    split
    · next hq =>
      rw [run_isPublished h c o r.id]
      simp [Recipe.IsRefused, Output.isQueryable_iff.1 hq, SimulatedEngine.isPublished]
    · next hq =>
      have hfree : ¬ r.IsRefused false s.state.1.volume :=
        fun hr => hq (Output.isQueryable_iff.2 hr.1)
      rw [decide_eq_false hfree]
      rfl

end Publish

namespace Recipe

variable {files : Files} {resolvable : Bool} {dir : String} {w : ShellWorkflow}

theorem run_launch (h : s.state.1.expectations = []) (c : EngineConfig) (o : SubmitOptions)
    (g : Graph) : ∃ name,
      ((launch (looks + 1) c o g).run (simulatedWorld resolver) s).1 = .done name := by
  obtain ⟨name, hname, hfound⟩ := Lifecycle.run_submit h c g
  refine ⟨name, ?_⟩
  rw [launch, run_bind, hname]
  dsimp only
  split
  · rw [run_bind, Lifecycle.run_wait hfound]
    rfl
  · rfl

theorem submissions_launch {es : List Exchange} {o : SubmitOptions} {out : Outcome String}
    (h : Runs (launch looks c o g) es out) : submissions es = [g] := by
  obtain ⟨a, rest, rfl, hrest⟩ := runs_launch h
  rw [submissions_cons_some rfl, hrest]

theorem run_start_refused (h : s.state.1.expectations = []) (c : EngineConfig) (o : SubmitOptions)
    (hr : r.IsRefused o.overwrite s.state.1.volume) :
    ((start (looks + 1) c o r).run (simulatedWorld resolver) s).1 = .failed (.published r.id) ∧
      submissions ((start (looks + 1) c o r).transcript (simulatedWorld resolver) s) =
        Publish.gate o.overwrite r := by
  have hgate := Publish.isBlocked_submissions (runs_transcript (simulatedWorld resolver)
    (Publish.isBlocked (looks + 1) c o.poll o.overwrite r) s)
  have hblocked : ((Publish.isBlocked (looks + 1) c o.poll o.overwrite r).run
      (simulatedWorld resolver) s).1 = .done true := by
    rw [Publish.run_isBlocked h c o.poll o.overwrite r, decide_eq_true hr]
  rw [start, run_bind, transcript_bind, hblocked, submissions_append, hgate]
  exact ⟨rfl, List.append_nil _⟩

theorem run_start_granted (h : s.state.1.expectations = []) (c : EngineConfig) (o : SubmitOptions)
    (hr : ¬ r.IsRefused o.overwrite s.state.1.volume) (hg : r.compile = .ok g) :
    (∃ name, ((start (looks + 1) c o r).run (simulatedWorld resolver) s).1 = .done name) ∧
      submissions ((start (looks + 1) c o r).transcript (simulatedWorld resolver) s) =
        Publish.gate o.overwrite r ++ [g] := by
  have hgate := Publish.isBlocked_submissions (runs_transcript (simulatedWorld resolver)
    (Publish.isBlocked (looks + 1) c o.poll o.overwrite r) s)
  have hblocked : ((Publish.isBlocked (looks + 1) c o.poll o.overwrite r).run
      (simulatedWorld resolver) s).1 = .done false := by
    rw [Publish.run_isBlocked h c o.poll o.overwrite r, decide_eq_false hr]
  rw [start, run_bind, transcript_bind, hblocked, submissions_append, hgate, hg]
  exact ⟨run_launch (run_expectations _ h) c o g,
    congrArg _ (submissions_launch (runs_transcript _ _ _))⟩

/-- What is left published when the data of a recipe are removed, if they are to be. -/
def clear (r : Recipe) (overwrite : Bool) (published : List String) : List String :=
  if overwrite then published.filter (· ≠ r.id) else published

/-- A call for a recipe, seen from what is published before and after it. -/
structure Accounted (r : Recipe) (overwrite : Bool) (before : List String) (out : Outcome String)
    (after : List String) : Prop where
  refused : (∃ code id, out = .failed (.alreadyPublished code id)) ↔ r.IsRefused overwrite before
  granted : ¬ r.IsRefused overwrite before → ∃ name, out = .done name
  kept : r.IsRefused overwrite before → after = before
  /-- Removing comes first, and publishing last. -/
  replaced : ¬ r.IsRefused overwrite before → after = r.deposit (r.clear overwrite before)
  /-- The data of other recipes are not touched. -/
  others : ∀ id, id ≠ r.id → (id ∈ after ↔ id ∈ before)

theorem start_volume (h : s.state.1.expectations = []) (c : EngineConfig) (o : SubmitOptions)
    (hg : r.compile = .ok g) (hw : r.workflow = .shell w) :
    ((start (looks + 1) c o r).run (simulatedWorld resolver) s).2.state.1.volume =
      if r.IsRefused o.overwrite s.state.1.volume then s.state.1.volume
      else r.deposit (r.clear o.overwrite s.state.1.volume) := by
  -- Only submissions count, and in both cases it is known which ones are made.
  rw [(run_agrees _ s).volume]
  split
  · next hr =>
    rw [(run_start_refused h c o hr).2, gate_volume, hr.2.1]
    rfl
  · next hr =>
    have hgate : (s.state.1.submitAll (Publish.gate o.overwrite r)).volume =
        r.clear o.overwrite s.state.1.volume := by
      rw [gate_volume, (SimulatedEngine.submit_unscripted h _).1, Bool.and_true]
      rfl
    rw [(run_start_granted h c o hr hg).2, SimulatedEngine.submitAll, List.foldl_append, ← hgate]
    exact SimulatedEngine.submit_compiled (SimulatedEngine.submitAll_unscripted h _) hg hw

theorem mem_deposit {published : List String} {id : String} :
    id ∈ r.deposit published ↔ id ∈ published ∨ (r.output = .pvc ∧ r.id = id) := by
  unfold deposit
  grind

theorem mem_deposit_clear {overwrite : Bool} {published : List String} {id : String}
    (h : id ≠ r.id) : id ∈ r.deposit (r.clear overwrite published) ↔ id ∈ published := by
  have hclear : id ∈ r.clear overwrite published ↔ id ∈ published := by
    unfold clear
    split
    · simp [h]
    · rfl
  rw [mem_deposit, hclear]
  exact or_iff_left fun hr => h hr.2.symm

theorem start_accounted (h : s.state.1.expectations = []) (c : EngineConfig) (o : SubmitOptions)
    (hg : r.compile = .ok g) (hw : r.workflow = .shell w) :
    Accounted r o.overwrite s.state.1.volume
      ((start (looks + 1) c o r).run (simulatedWorld resolver) s).1
      ((start (looks + 1) c o r).run (simulatedWorld resolver) s).2.state.1.volume := by
  rw [start_volume h c o hg hw]
  by_cases hr : r.IsRefused o.overwrite s.state.1.volume
  · rw [(run_start_refused h c o hr).1, if_pos hr]
    exact ⟨⟨fun _ => hr, fun _ => ⟨_, _, rfl⟩⟩, fun hn => absurd hr hn, fun _ => rfl,
      fun hn => absurd hr hn, fun _ _ => Iff.rfl⟩
  · have hdone : ∃ name,
        ((start (looks + 1) c o r).run (simulatedWorld resolver) s).1 = .done name :=
      (run_start_granted h c o hr hg).1
    obtain ⟨name, hname⟩ := hdone
    rw [hname, if_neg hr]
    refine ⟨⟨?_, fun hp => absurd hp hr⟩, fun _ => ⟨name, rfl⟩, fun hp => absurd hp hr,
      fun _ => rfl, fun _ => mem_deposit_clear⟩
    rintro ⟨_, _, ⟨⟩⟩

/-- Loading does not change what is published. -/
theorem run_loadResolved_volume (files : Files) (resolvable : Bool) (dir : String)
    (s : Clocked (SimulatedEngine × τ)) :
    ((loadResolved files resolvable dir).run (simulatedWorld resolver) s).2.state.1.volume =
      s.state.1.volume := by
  have hlisting := loadResolved_asksOnly.of_runs
    (runs_transcript (simulatedWorld resolver) (loadResolved files resolvable dir) s)
  rw [(run_agrees _ s).volume, submissions_listing hlisting]
  rfl

end Recipe

/-- A call for the recipe in a directory. -/
structure Call where
  files : Files
  resolvable : Bool
  config : EngineConfig
  options : SubmitOptions
  dir : String

namespace Call

/-- What a call does first. -/
def load (x : Call) : Dialogue Recipe :=
  Recipe.loadResolved x.files x.resolvable x.dir

def submit (looks : Nat) (x : Call) : Dialogue String :=
  Recipe.submit looks x.files x.resolvable x.config x.options x.dir

/-- The state after calls that are made one after another. -/
def after (resolver : Dataset.Resolver τ) (looks : Nat) (s : Clocked (SimulatedEngine × τ)) :
    List Call → Clocked (SimulatedEngine × τ)
  | [] => s
  | x :: xs => after resolver looks ((x.submit looks).run (simulatedWorld resolver) s).2 xs

theorem after_append (s : Clocked (SimulatedEngine × τ)) (xs ys : List Call) :
    after resolver looks s (xs ++ ys) =
      after resolver looks (after resolver looks s xs) ys := by
  induction xs generalizing s with
  | nil => rfl
  | cons x xs ih => exact ih _

/-- No call scripts what is to come. -/
theorem after_expectations (h : s.state.1.expectations = []) (xs : List Call) :
    (after resolver looks s xs).state.1.expectations = [] := by
  induction xs generalizing s with
  | nil => exact h
  | cons x xs ih => exact ih (run_expectations (x.submit looks) h)

theorem submit_accounted {x : Call} {w : ShellWorkflow} (h : s.state.1.expectations = [])
    (hload : (x.load.run (simulatedWorld resolver) s).1 = .done r) (hg : r.compile = .ok g)
    (hw : r.workflow = .shell w) :
    r.Accounted x.options.overwrite s.state.1.volume
      ((x.submit (looks + 1)).run (simulatedWorld resolver) s).1
      ((x.submit (looks + 1)).run (simulatedWorld resolver) s).2.state.1.volume := by
  have hvolume : (x.load.run (simulatedWorld resolver) s).2.state.1.volume = s.state.1.volume :=
    Recipe.run_loadResolved_volume x.files x.resolvable x.dir s
  have hrun : (x.submit (looks + 1)).run (simulatedWorld resolver) s =
      (Recipe.start (looks + 1) x.config x.options r).run (simulatedWorld resolver)
        (x.load.run (simulatedWorld resolver) s).2 := by
    show (x.load >>= Recipe.start (looks + 1) x.config x.options).run _ s = _
    rw [run_bind, hload]
  rw [hrun, ← hvolume]
  exact Recipe.start_accounted (run_expectations x.load h) x.config x.options hg hw

/-- In every session with an engine that is not scripted, whatever calls were made before, a call
for a shell recipe is refused just if its results are there and not to be replaced, and succeeds
else. What is published changes by its own results only. -/
theorem session_accounted {x : Call} {w : ShellWorkflow} (hlooks : 0 < looks)
    (h : s.state.1.expectations = []) (before : List Call)
    (hload : (x.load.run (simulatedWorld resolver) (after resolver looks s before)).1 = .done r)
    (hg : r.compile = .ok g) (hw : r.workflow = .shell w) :
    r.Accounted x.options.overwrite (after resolver looks s before).state.1.volume
      ((x.submit looks).run (simulatedWorld resolver) (after resolver looks s before)).1
      (after resolver looks s (before ++ [x])).state.1.volume := by
  obtain ⟨looks, rfl⟩ := Nat.exists_eq_add_one_of_ne_zero hlooks.ne'
  rw [after_append]
  exact submit_accounted (after_expectations h before) hload hg hw

/-- A call for the recipe of `Recipe.copying`. -/
def copies : Call := ⟨Recipe.copying, false, {}, {}, "d"⟩

/-- A call for the same recipe that replaces its results. -/
def replaces : Call := { copies with options := { overwrite := true } }

/-- An engine that keeps its executions, on whose volume are the data of another recipe. -/
def keeping : Clocked (SimulatedEngine × Unit) :=
  ⟨({ volume := ["b"], failDeletes := true }, ()), ⟨0⟩⟩

/-- The second call is refused; the third one replaces what the first one published. -/
theorem session_accounted_copied :
    keeping.state.1.expectations = [] ∧
      (∃ code id, ((copies.submit 1).run (simulatedWorld (.ofTable []))
        (after (.ofTable []) 1 keeping [copies])).1 = .failed (.alreadyPublished code id)) ∧
      (∃ name, ((replaces.submit 1).run (simulatedWorld (.ofTable []))
        (after (.ofTable []) 1 keeping [copies, copies])).1 = .done name) ∧
      (after (.ofTable []) 1 keeping ([copies, copies] ++ [replaces])).state.1.volume =
        ["b", "r"] := by
  have h : keeping.state.1.expectations = [] := rfl
  obtain ⟨hfound, hcompile⟩ := Recipe.validate_eq_ok Recipe.validate_copying
  obtain ⟨g, hg⟩ := hcompile rfl
  have hw : Recipe.copied.workflow =
      .shell ⟨"d/recipe.sh", ["cp $INPUT_FILE $OUTPUT_FILE"], {}⟩ := rfl
  have hcopies : copies.load = pure Recipe.copied := Recipe.loadResolved_eq_pure hfound rfl
  have hreplaces : replaces.load = pure Recipe.copied := Recipe.loadResolved_eq_pure hfound rfl
  have hload (xs : List Call) : (copies.load.run (simulatedWorld (.ofTable []))
      (after (.ofTable []) 1 keeping xs)).1 = .done Recipe.copied := by
    rw [hcopies]
    rfl
  have hreload : (replaces.load.run (simulatedWorld (.ofTable []))
      (after (.ofTable []) 1 keeping [copies, copies])).1 = .done Recipe.copied := by
    rw [hreplaces]
    rfl
  have first := session_accounted Nat.one_pos h [] (hload []) hg hw
  have second := session_accounted Nat.one_pos h [copies] (hload [copies]) hg hw
  have third := session_accounted Nat.one_pos h [copies, copies] hreload hg hw
  have hfirst : (after (.ofTable []) 1 keeping ([] ++ [copies])).state.1.volume = ["b", "r"] :=
    (first.replaced (by decide)).trans (by decide)
  rw [List.nil_append] at hfirst
  rw [hfirst] at second
  have hsecond := second.kept (by decide)
  rw [List.singleton_append] at hsecond
  rw [hsecond] at third
  have hafter := third.replaced (by decide)
  exact ⟨h, second.refused.2 (by decide), third.granted (by decide), hafter.trans (by decide)⟩

end Call

end RecipeFlow
