import Mathlib.Data.List.Basic
import RecipeFlow.Proofs.Compile.Pipeline
import RecipeFlow.Proofs.Run.Gate

/-! A recipe's own graph is submitted once, last, and only behind what its gate asks for. -/
namespace RecipeFlow

open Dialogue

variable {c : EngineConfig} {g : Graph} {looks : Nat} {o : SubmitOptions} {r : Recipe}
  {es : List Exchange} {out : Outcome String}

namespace Publish

/-- How the name ends that a graph asks for. -/
def ending (g : Graph) : List Char :=
  g.generateName.toList.reverse.take 2

theorem ending_checkGraph (id : String) : ending (checkGraph id) = ['-', 'd'] := by
  have hname : (checkGraph id).generateName = id ++ "-check-published-" := rfl
  rw [ending, hname, String.toList_append, List.reverse_append]
  rfl

theorem ending_clearGraph (id : String) : ending (clearGraph id) = ['-', 'a'] := by
  have hname : (clearGraph id).generateName = id ++ "-remove-existing-data-" := rfl
  rw [ending, hname, String.toList_append, List.reverse_append]
  rfl

theorem ending_of_compile (h : r.compile = .ok g) :
    ending g = ['-', 'l'] ∨ ending g = ['-', 'n'] := by
  have hname := Recipe.generateName_of_compile h
  cases hw : r.workflow with
  | shell w =>
    left
    rw [ending, hname, hw]
    simp [Workflow.kind]
  | visualization v =>
    right
    rw [ending, hname, hw]
    simp [Workflow.kind]

/-- The graphs around published data are not what a recipe compiles to. -/
theorem compile_ne_checkGraph (h : r.compile = .ok g) (id : String) : g ≠ checkGraph id := by
  rintro rfl
  rcases ending_of_compile h with he | he
  · cases (ending_checkGraph id).symm.trans he
  · cases (ending_checkGraph id).symm.trans he

theorem compile_ne_clearGraph (h : r.compile = .ok g) (id : String) : g ≠ clearGraph id := by
  rintro rfl
  rcases ending_of_compile h with he | he
  · cases (ending_clearGraph id).symm.trans he
  · cases (ending_clearGraph id).symm.trans he

theorem compile_notMem_gate (h : r.compile = .ok g) (overwrite : Bool) :
    g ∉ gate overwrite r := by
  unfold gate
  split
  · simpa using compile_ne_clearGraph h r.id
  · split
    · simpa using compile_ne_checkGraph h r.id
    · exact List.not_mem_nil

end Publish

namespace Recipe

/-- How a loaded recipe is run. Only behind a gate that does not block it, and with a graph, does
it get to its launch. -/
inductive Started (looks : Nat) (c : EngineConfig) (o : SubmitOptions) (r : Recipe) :
    List Exchange → Outcome String → Prop
  | launched {pre post : List Exchange} {out : Outcome String} {g : Graph}
      (hgate : Runs (Publish.isBlocked looks c o.poll o.overwrite r) pre (.done false))
      (hg : r.compile = .ok g) (hlaunch : Runs (launch looks c o g) post out) :
      Started looks c o r (pre ++ post) out
  | uncompiled {es : List Exchange} {f : Fault}
      (hgate : Runs (Publish.isBlocked looks c o.poll o.overwrite r) es (.done false))
      (hg : r.compile = .error f) : Started looks c o r es (.failed f)
  | blocked {es : List Exchange}
      (hgate : Runs (Publish.isBlocked looks c o.poll o.overwrite r) es (.done true)) :
      Started looks c o r es (.failed (.published r.id))
  | failed {es : List Exchange} {f : Fault}
      (hgate : Runs (Publish.isBlocked looks c o.poll o.overwrite r) es (.failed f)) :
      Started looks c o r es (.failed f)
  | stalled {es : List Exchange}
      (hgate : Runs (Publish.isBlocked looks c o.poll o.overwrite r) es .stalled) :
      Started looks c o r es .stalled

theorem started_of_runs (h : Runs (start looks c o r) es out) : Started looks c o r es out := by
  rcases runs_bind.1 h with ⟨b, pre, post, rfl, hgate, hpost⟩ | ⟨f, rfl, hgate⟩ | ⟨rfl, hgate⟩
  · cases b with
    | true =>
      obtain ⟨rfl, rfl⟩ := runs_failed.1 hpost
      rw [List.append_nil]
      exact .blocked hgate
    | false =>
      cases hg : r.compile with
      | ok g =>
        rw [hg] at hpost
        exact .launched hgate hg hpost
      | error f =>
        rw [hg] at hpost
        obtain ⟨rfl, rfl⟩ := runs_failed.1 hpost
        rw [List.append_nil]
        exact .uncompiled hgate hg
  · exact .failed hgate
  · exact .stalled hgate

/-- Without a graph there are no submissions but the gate's. -/
theorem uncompiled_submissions {f : Fault} (h : Started looks c o r es out)
    (hr : r.compile = .error f) : submissions es = Publish.gate o.overwrite r := by
  cases h with
  | launched _ hg _ => cases hr.symm.trans hg
  | uncompiled hgate _ => exact Publish.isBlocked_submissions hgate
  | blocked hgate => exact Publish.isBlocked_submissions hgate
  | failed hgate => exact Publish.isBlocked_submissions hgate
  | stalled hgate => exact Publish.isBlocked_submissions hgate

/-- A launch submits its graph first, and then nothing. -/
theorem runs_launch (h : Runs (launch looks c o g) es out) :
    ∃ a rest, es = ⟨.submit g c, a⟩ :: rest ∧ submissions rest = [] := by
  obtain ⟨_, pre, post, rfl, hpre, hpost⟩ := submissions_bind_quiet h fun name => by
    split
    · exact asksOnly_bind Lifecycle.wait_isQuiet fun _ => trivial
    · trivial
  obtain ⟨a, rfl, -⟩ := Lifecycle.runs_submit hpre
  exact ⟨a, post, rfl, hpost⟩

/-- What a run keeps to once its recipe is loaded. -/
structure Guarded (looks : Nat) (c : EngineConfig) (o : SubmitOptions) (r : Recipe)
    (es : List Exchange) (out : Outcome String) : Prop where
  /-- Without consent no data is removed. -/
  keeps : o.overwrite = false → ∀ id, Publish.clearGraph id ∉ submissions es
  once : ∀ g, r.compile = .ok g → (submissions es).count g ≤ 1
  /-- The recipe's graph is submitted last, after what has to be seen and after no answer that is
  amiss. From there on the run is a launch: it fails as its launch does, and if anything fails
  before, there is no such submission. -/
  launch : ∀ g, r.compile = .ok g → ∀ before c' a after,
    es = before ++ ⟨.submit g c', a⟩ :: after →
      submissions after = [] ∧ Publish.MayLaunch c o.overwrite r before ∧
        (∀ x ∈ before, x.IsFine) ∧ Runs (launch looks c o g) (⟨.submit g c', a⟩ :: after) out

theorem not_mem_of_submissions {g : Graph} {c' : EngineConfig} {es : List Exchange}
    (h : g ∉ submissions es) (a : Except Fault (Option String)) :
    (⟨.submit g c', a⟩ : Exchange) ∉ es :=
  fun hm => h (mem_submissions.2 ⟨_, hm, rfl⟩)

theorem clearGraph_notMem_gate (r : Recipe) (id : String) :
    Publish.clearGraph id ∉ Publish.gate false r := by
  unfold Publish.gate
  split
  · next h => cases h
  · split
    · intro hmem
      have he := congrArg Publish.ending (List.mem_singleton.1 hmem)
      rw [Publish.ending_clearGraph, Publish.ending_checkGraph] at he
      cases he
    · exact List.not_mem_nil

/-- A run that does not get past its gate. -/
theorem guarded_of_gate (h : submissions es = Publish.gate o.overwrite r) :
    Guarded looks c o r es out := by
  have hnot : ∀ g, r.compile = .ok g → g ∉ submissions es := by
    intro g hg
    rw [h]
    exact Publish.compile_notMem_gate hg o.overwrite
  refine ⟨?_, ?_, ?_⟩
  · intro ho id
    rw [h, ho]
    exact clearGraph_notMem_gate r id
  · intro g hg
    rw [List.count_eq_zero_of_not_mem (hnot g hg)]
    exact Nat.zero_le 1
  · intro g hg before c' a after he
    have hmem : g ∈ submissions es := by
      refine mem_submissions.2 ⟨⟨.submit g c', a⟩, ?_, rfl⟩
      simp [he]
    exact absurd hmem (hnot g hg)

/-- A run that gets to its launch. -/
theorem guarded_of_launch {pre post : List Exchange} (hg : r.compile = .ok g)
    (hsub : submissions pre = Publish.gate o.overwrite r)
    (hmay : Publish.MayLaunch c o.overwrite r pre) (hfine : ∀ x ∈ pre, x.IsFine)
    (hlaunch : Runs (launch looks c o g) post out) : Guarded looks c o r (pre ++ post) out := by
  obtain ⟨a, rest, rfl, hrest⟩ := runs_launch hlaunch
  have hpre : g ∉ submissions pre := hsub ▸ Publish.compile_notMem_gate hg o.overwrite
  have hall : submissions (pre ++ ⟨.submit g c, a⟩ :: rest) =
      Publish.gate o.overwrite r ++ [g] := by
    rw [submissions_append, submissions_cons_some rfl, hsub, hrest]
  refine ⟨?_, ?_, ?_⟩
  · intro ho id
    rw [hall, ho, List.mem_append, List.mem_singleton]
    rintro (h | h)
    · exact clearGraph_notMem_gate r id h
    · exact Publish.compile_ne_clearGraph hg id h.symm
  · intro g' hg'
    obtain rfl : g = g' := Except.ok.inj (hg.symm.trans hg')
    rw [hall, ← hsub, List.count_append, List.count_eq_zero_of_not_mem hpre, List.count_singleton]
    simp
  · intro g' hg' before c' a' after he
    obtain rfl : g = g' := Except.ok.inj (hg.symm.trans hg')
    -- Neither before nor after the launch is the graph submitted, so this is the launch.
    have hbefore : (⟨.submit g c', a'⟩ : Exchange) ∉ pre := not_mem_of_submissions hpre a'
    have hafter : (⟨.submit g c', a'⟩ : Exchange) ∉ rest :=
      not_mem_of_submissions (hrest ▸ List.not_mem_nil) a'
    obtain ⟨rfl, hx, rfl⟩ := (List.append_cons_inj_of_notMem hbefore hafter).1 he
    exact ⟨hrest, hmay, hfine, hx ▸ hlaunch⟩

theorem guarded_of_started {load : List Exchange}
    (hload : ∀ x ∈ load, x.query.IsListing ∧ x.IsFine) (h : Started looks c o r es out) :
    Guarded looks c o r (load ++ es) out := by
  have hnone : submissions load = [] := submissions_listing fun x hx => (hload x hx).1
  have hsub : ∀ {pre : List Exchange} {b : Outcome Bool},
      Runs (Publish.isBlocked looks c o.poll o.overwrite r) pre b →
        submissions (load ++ pre) = Publish.gate o.overwrite r := by
    intro pre b hb
    rw [submissions_append, hnone, List.nil_append]
    exact Publish.isBlocked_submissions hb
  cases h with
  | @launched pre post out g hgate hg hlaunch =>
    rw [← List.append_assoc]
    refine guarded_of_launch hg (hsub hgate) ?_ ?_ hlaunch
    · exact (Publish.isBlocked_false hgate).after_listing fun x hx => (hload x hx).1
    · exact List.forall_mem_append.2
        ⟨fun x hx => (hload x hx).2, Publish.heeds_isBlocked _ _ hgate⟩
  | uncompiled hgate hg => exact guarded_of_gate (hsub hgate)
  | blocked hgate => exact guarded_of_gate (hsub hgate)
  | failed hgate => exact guarded_of_gate (hsub hgate)
  | stalled hgate => exact guarded_of_gate (hsub hgate)

/-- Whatever it is answered, a submission keeps to its gate once its recipe is loaded, and calls no
engine if that fails. -/
theorem submit_guarded {σ : Type} (w : World σ) (s : σ) (files : Files) (resolvable : Bool)
    (looks : Nat) (c : EngineConfig) (o : SubmitOptions) (dir : String) :
    match ((loadResolved files resolvable dir).run w s).1 with
    | .done r => Guarded looks c o r ((submit looks files resolvable c o dir).transcript w s)
        ((submit looks files resolvable c o dir).run w s).1
    | .failed _ | .stalled =>
      ∀ x ∈ (submit looks files resolvable c o dir).transcript w s, ¬ x.query.IsEngineCall := by
  have hruns := runs_transcript w (loadResolved files resolvable dir) s
  have hlisting := loadResolved_asksOnly.of_runs hruns
  unfold submit
  rw [transcript_bind, run_bind]
  cases hload : ((loadResolved files resolvable dir).run w s).1 with
  | done r =>
    refine guarded_of_started (fun x hx => ⟨hlisting x hx, ?_⟩)
      (started_of_runs (runs_transcript w (start looks c o r) _))
    exact heeds_loadResolved _ _ (hload ▸ hruns) x hx
  | failed f =>
    intro x hx
    exact not_isEngineCall_of_isListing (hlisting x (by simpa using hx))
  | stalled =>
    intro x hx
    exact not_isEngineCall_of_isListing (hlisting x (by simpa using hx))

end Recipe

end RecipeFlow
