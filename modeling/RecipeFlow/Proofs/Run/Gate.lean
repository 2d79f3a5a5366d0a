import RecipeFlow.Proofs.Run.Watching
import RecipeFlow.Run.Recipe

/-! What is asked before a recipe's own graph is submitted: the files of its datasets, and the
state of published data. -/
namespace RecipeFlow

open Dialogue

variable {α β : Type} {c : EngineConfig} {g : Graph} {looks : Nat} {name : String}
  {e : Execution} {es : List Exchange} {r : Recipe} {overwrite : Bool}

/-- A query that submits nothing. -/
def Query.IsQuiet (q : Query) : Prop := q.submitted? = none

theorem submissions_quiet {d : Dialogue α} {out : Outcome α} (hd : d.AsksOnly Query.IsQuiet)
    (h : Runs d es out) : submissions es = [] :=
  submissions_eq_nil (hd.of_runs h)

/-- What a quiet program goes on with does not count among the submissions. -/
theorem submissions_bind_quiet {d : Dialogue α} {k : α → Dialogue β} {out : Outcome β}
    (h : Runs (d >>= k) es out) (hk : ∀ a, (k a).AsksOnly Query.IsQuiet) :
    ∃ o pre post, es = pre ++ post ∧ Runs d pre o ∧ submissions post = [] := by
  rcases runs_bind.1 h with ⟨a, pre, post, rfl, hd, hpost⟩ | ⟨f, -, hd⟩ | ⟨-, hd⟩
  · exact ⟨_, pre, post, rfl, hd, submissions_quiet (hk a) hpost⟩
  · exact ⟨_, es, [], by simp, hd, rfl⟩
  · exact ⟨_, es, [], by simp, hd, rfl⟩

/-- An execution of a graph was submitted, and later seen to have succeeded. -/
def Observed (c : EngineConfig) (g : Graph) (e : Execution) (es : List Exchange) : Prop :=
  e.phase = .succeeded ∧ ∃ name before between after,
    es = before ++ ⟨.submit g c, .ok (some name)⟩ :: (between ++
      ⟨.find name c, .ok (some e)⟩ :: after)

theorem Observed.append (h : Observed c g e es) (pre post : List Exchange) :
    Observed c g e (pre ++ es ++ post) := by
  obtain ⟨he, name, before, between, after, rfl⟩ := h
  exact ⟨he, name, pre ++ before, between, after ++ post, by simp⟩

namespace Lifecycle

variable {o : PollOptions}

theorem isQuiet_of_isLook {q : Query} (h : IsLook c name q) : q.IsQuiet := by
  cases q with
  | submit g c => exact h.elim
  | find | delete | list | sleep | clock => rfl

theorem wait_isQuiet : (wait looks c name o).AsksOnly Query.IsQuiet :=
  wait_asksOnly.mono fun _ => isQuiet_of_isLook

theorem heeds_submit : Heeds (submit c g) := by
  intro es n h
  obtain ⟨a, rfl, ha⟩ := runs_submit h
  simp [Exchange.IsFine, ha n rfl]

theorem wait_done (h : Runs (wait looks c name o) es (.done e)) :
    (∀ x ∈ es, x.IsFine) ∧ e.phase = .succeeded ∧
      ∃ before, es = before ++ [⟨.find name c, .ok (some e)⟩] := by
  obtain ⟨started, rest, rfl, hwatch⟩ := runs_ask.1 h
  obtain ⟨hfine, he, before, rfl⟩ := watch_done hwatch
  exact ⟨List.forall_mem_cons.2 ⟨trivial, hfine⟩, he, _ :: before, rfl⟩

theorem heeds_runToCompletion : Heeds (runToCompletion looks c g o) :=
  heeds_bind heeds_submit fun _ _ _ h => (wait_done h).1

theorem runToCompletion_observed (h : Runs (runToCompletion looks c g o) es (.done e)) :
    Observed c g e es := by
  obtain ⟨n, pre, post, rfl, hpre, hpost⟩ := runs_bind_done.1 h
  obtain ⟨a, rfl, ha⟩ := runs_submit hpre
  obtain ⟨-, he, before, rfl⟩ := wait_done hpost
  obtain rfl := ha n rfl
  exact ⟨he, n, [], before, [], rfl⟩

theorem runToCompletion_submissions {out : Outcome Execution}
    (h : Runs (runToCompletion looks c g o) es out) : submissions es = [g] := by
  obtain ⟨_, pre, post, rfl, hpre, hpost⟩ := submissions_bind_quiet h fun _ => wait_isQuiet
  obtain ⟨a, rfl, -⟩ := runs_submit hpre
  rw [submissions_append, hpost]
  rfl

/-- What is quietly done with a completed execution leaves its graph the only one submitted. -/
theorem submissions_completed {k : Execution → Dialogue β} {out : Outcome β}
    (h : Runs (runToCompletion looks c g o >>= k) es out)
    (hk : ∀ e, (k e).AsksOnly Query.IsQuiet) : submissions es = [g] := by
  obtain ⟨_, pre, post, rfl, hpre, hpost⟩ := submissions_bind_quiet h hk
  rw [submissions_append, hpost, List.append_nil]
  exact runToCompletion_submissions hpre

end Lifecycle

namespace Publish

variable {o : PollOptions}

/-- The graphs that are submitted before a recipe's own. -/
def gate (overwrite : Bool) (r : Recipe) : List Graph :=
  if overwrite then [clearGraph r.id]
  else if r.output.isQueryable then [checkGraph r.id]
  else []

/-- What has to be seen before a recipe's own graph may be submitted: with consent the removal of
its data, else that there is none, and nothing where one cannot ask. -/
def MayLaunch (c : EngineConfig) (overwrite : Bool) (r : Recipe) (es : List Exchange) : Prop :=
  if overwrite then ∃ e, Observed c (clearGraph r.id) e es
  else if r.output = .pvc then
    ∃ e, Observed c (checkGraph r.id) e es ∧
      (e.output? checkName answerParameter).map Text.trim = some "no"
  else ∀ x ∈ es, ¬ x.query.IsEngineCall

theorem readAnswer?_eq_false {output : Option String} (h : readAnswer? output = some false) :
    output.map Text.trim = some "no" := by
  unfold readAnswer? at h
  grind

theorem heeds_isPublished {id : String} : Heeds (isPublished looks c o id) := by
  refine heeds_bind Lifecycle.heeds_runToCompletion fun e => ?_
  refine heeds_bind (heeds_discard _ _) fun _ => ?_
  cases readAnswer? (e.output? checkName answerParameter) with
  | none => exact heeds_failed _
  | some b => exact heeds_pure b

theorem heeds_isBlocked : Heeds (isBlocked looks c o overwrite r) := by
  unfold isBlocked
  split
  · refine heeds_bind (heeds_bind Lifecycle.heeds_runToCompletion fun _ => heeds_discard _ _) ?_
    exact fun _ => heeds_pure false
  · split
    · exact heeds_isPublished
    · exact heeds_pure false

theorem isPublished_false {id : String} (h : Runs (isPublished looks c o id) es (.done false)) :
    ∃ e, Observed c (checkGraph id) e es ∧
      (e.output? checkName answerParameter).map Text.trim = some "no" := by
  obtain ⟨e, pre, post, rfl, hpre, hpost⟩ := runs_bind_done.1 h
  obtain ⟨_, _, post, rfl, -, hanswer⟩ := runs_bind_done.1 hpost
  refine ⟨e, (Lifecycle.runToCompletion_observed hpre).append [] _, readAnswer?_eq_false ?_⟩
  cases ha : readAnswer? (e.output? checkName answerParameter) with
  | none =>
    rw [ha] at hanswer
    cases (runs_failed.1 hanswer).2
  | some b =>
    rw [ha] at hanswer
    cases (runs_pure.1 hanswer).2
    rfl

theorem remove_observed {id : String} {u : Unit} (h : Runs (remove looks c o id) es (.done u)) :
    ∃ e, Observed c (clearGraph id) e es := by
  obtain ⟨e, pre, post, rfl, hpre, -⟩ := runs_bind_done.1 h
  exact ⟨e, (Lifecycle.runToCompletion_observed hpre).append [] _⟩

theorem isBlocked_false (h : Runs (isBlocked looks c o overwrite r) es (.done false)) :
    MayLaunch c overwrite r es := by
  cases overwrite with
  | true =>
    obtain ⟨_, pre, post, rfl, hpre, -⟩ := runs_bind_done.1 h
    obtain ⟨e, he⟩ := remove_observed hpre
    exact ⟨e, he.append [] _⟩
  | false =>
    unfold isBlocked at h
    cases hr : r.output with
    | pvc =>
      rw [hr] at h
      simpa [MayLaunch, hr] using isPublished_false h
    | temporary | dataone =>
      rw [hr] at h
      simp [MayLaunch, hr, (runs_pure.1 h).1]

theorem isPublished_submissions {id : String} {out : Outcome Bool}
    (h : Runs (isPublished looks c o id) es out) : submissions es = [checkGraph id] := by
  apply Lifecycle.submissions_completed h
  intro e
  refine asksOnly_bind ⟨rfl, fun _ => trivial⟩ ?_
  intro _
  cases readAnswer? (e.output? checkName answerParameter) with
  | none => trivial
  | some b => trivial

theorem remove_submissions {id : String} {out : Outcome Unit}
    (h : Runs (remove looks c o id) es out) : submissions es = [clearGraph id] :=
  Lifecycle.submissions_completed h fun _ => ⟨rfl, fun _ => trivial⟩

theorem isBlocked_submissions {out : Outcome Bool}
    (h : Runs (isBlocked looks c o overwrite r) es out) : submissions es = gate overwrite r := by
  cases overwrite with
  | true =>
    obtain ⟨_, pre, post, rfl, hpre, hpost⟩ := submissions_bind_quiet h fun _ => trivial
    rw [submissions_append, hpost, remove_submissions hpre]
    rfl
  | false =>
    unfold isBlocked at h
    cases hr : r.output with
    | pvc =>
      rw [hr] at h
      simpa [gate, hr, Output.isQueryable] using isPublished_submissions h
    | temporary | dataone =>
      rw [hr] at h
      simp [gate, hr, (runs_pure.1 h).1, Output.isQueryable]

end Publish

/-- A query for the files of a dataset. -/
def Query.IsListing : Query → Prop
  | list _ => True
  | submit .. | find .. | delete .. | sleep _ | clock => False

theorem submissions_listing (h : ∀ x ∈ es, x.query.IsListing) : submissions es = [] := by
  apply submissions_eq_nil
  intro x hx
  obtain ⟨q, a⟩ := x
  cases q with
  | list => rfl
  | submit | find | delete | sleep | clock => exact (h _ hx).elim

theorem not_isEngineCall_of_isListing {q : Query} (h : q.IsListing) : ¬ q.IsEngineCall := by
  cases q with
  | list => exact id
  | submit | find | delete | sleep | clock => exact h.elim

theorem Publish.MayLaunch.after_listing {load : List Exchange} (h : MayLaunch c overwrite r es)
    (hload : ∀ x ∈ load, x.query.IsListing) : MayLaunch c overwrite r (load ++ es) := by
  cases overwrite with
  | true =>
    obtain ⟨e, he⟩ := h
    exact ⟨e, by simpa using he.append load []⟩
  | false =>
    simp only [MayLaunch, Bool.false_eq_true, if_false] at h ⊢
    split
    · next hr =>
      rw [if_pos hr] at h
      obtain ⟨e, he, ha⟩ := h
      exact ⟨e, by simpa using he.append load [], ha⟩
    · next hr =>
      rw [if_neg hr] at h
      exact List.forall_mem_append.2 ⟨fun x hx => not_isEngineCall_of_isListing (hload x hx), h⟩

theorem Input.resolve_asksOnly (i : Input) : i.resolve.AsksOnly Query.IsListing := by
  unfold resolve
  split
  · refine asksOnly_bind ⟨trivial, fun a => asksOnly_ofExcept a⟩ fun objects => ?_
    exact asksOnly_bind (asksOnly_ofExcept _) fun _ => trivial
  · trivial

theorem Input.heeds_resolve (i : Input) : Heeds i.resolve := by
  unfold resolve
  split
  · refine heeds_bind (heeds_list _) fun objects => ?_
    exact heeds_bind (heeds_ofExcept _) fun _ => heeds_pure _
  · exact heeds_pure i

theorem Input.resolve_halts (i : Input) : i.resolve.Halts := by
  unfold resolve
  split
  · refine halts_bind (fun a => halts_ofExcept a) fun objects => ?_
    exact halts_bind (halts_ofExcept _) fun _ => trivial
  · trivial

theorem Input.resolveAll_asksOnly (is : List Input) :
    (resolveAll is).AsksOnly Query.IsListing := by
  induction is with
  | nil => trivial
  | cons i is ih =>
    exact asksOnly_bind i.resolve_asksOnly fun _ => asksOnly_bind ih fun _ => trivial

theorem Input.resolveAll_halts (is : List Input) : (resolveAll is).Halts := by
  induction is with
  | nil => trivial
  | cons i is ih => exact halts_bind i.resolve_halts fun _ => halts_bind ih fun _ => trivial

theorem Input.heeds_resolveAll (is : List Input) : Heeds (resolveAll is) := by
  induction is with
  | nil => exact heeds_pure _
  | cons i is ih =>
    exact heeds_bind i.heeds_resolve fun _ => heeds_bind ih fun _ => heeds_pure _

namespace Recipe

variable {files : Files} {resolvable : Bool} {dir : String}

theorem loadResolved_asksOnly :
    (loadResolved files resolvable dir).AsksOnly Query.IsListing := by
  refine asksOnly_bind (asksOnly_ofExcept _) fun r => ?_
  split
  · trivial
  · split
    · trivial
    · exact asksOnly_mapFault (asksOnly_bind (Input.resolveAll_asksOnly _) fun _ => trivial)

theorem loadResolved_halts : (loadResolved files resolvable dir).Halts := by
  refine halts_bind (halts_ofExcept _) fun r => ?_
  split
  · trivial
  · split
    · trivial
    · exact halts_mapFault (halts_bind (Input.resolveAll_halts _) fun _ => trivial)

theorem heeds_loadResolved : Heeds (loadResolved files resolvable dir) := by
  refine heeds_bind (heeds_ofExcept _) fun r => ?_
  split
  · exact heeds_pure r
  · split
    · exact heeds_failed _
    · exact heeds_mapFault (heeds_bind (Input.heeds_resolveAll _) fun _ => heeds_pure _)

end Recipe

end RecipeFlow
