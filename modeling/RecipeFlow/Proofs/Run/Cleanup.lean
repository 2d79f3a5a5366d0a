import RecipeFlow.Proofs.Run.Gate
import RecipeFlow.Proofs.Run.Polling

/-! Temporary executions, which look at published data or remove them. Each is dropped once it has
been seen to succeed, and else never; whether it can be dropped makes no difference. -/
namespace RecipeFlow

open Dialogue

variable {α : Type} {c : EngineConfig} {d : Dialogue α} {es pre : List Exchange} {g : Graph}
  {id name : String} {looks : Nat} {o : PollOptions} {q : Query} {read : Execution → Outcome α}
  {started : Duration}

/-- A look at an execution shows it under the name that it was asked for. -/
def Exchange.IsNamed : Exchange → Prop
  | ⟨.find name _, .ok (some e)⟩ => e.name = name
  | _ => True

/-- A query that drops nothing. -/
def Query.IsKeeping (q : Query) : Prop := q.dropped? = none

theorem Query.IsListing.isKeeping (h : q.IsListing) : q.IsKeeping := by
  cases q with
  | list => rfl
  | submit | find | delete | sleep | clock => exact h.elim

/-- A part of a watch that decides nothing: time passes, or no last phase is seen. -/
def Exchange.IsOpen (c : EngineConfig) (name : String) : Exchange → Prop
  | ⟨.find name' c', a⟩ => name' = name ∧ c' = c ∧
      ∃ info, a = .ok info ∧ ∀ e p, info = some e → e.phase? = some p → p.isTerminal = false
  | ⟨.sleep _, _⟩ | ⟨.clock, _⟩ => True
  | ⟨.submit .., _⟩ | ⟨.delete .., _⟩ | ⟨.list _, _⟩ => False

/-- The same query, which got the same answer unless it drops something. -/
def Exchange.Matches (x y : Exchange) : Prop :=
  x.query = y.query ∧ (x.query.IsKeeping → x = y)

/-- What a watch of an execution meets, and what it comes to. -/
inductive Watched (c : EngineConfig) (name : String) (o : PollOptions) (started : Duration) :
    List Exchange → Outcome Execution → Prop
  | succeeded {es : List Exchange} {e : Execution} (hopen : ∀ x ∈ es, x.IsOpen c name)
      (hphase : e.phase? = some .succeeded) :
      Watched c name o started (es ++ [⟨.find name c, .ok (some e)⟩]) (.done e)
  | refused {es : List Exchange} {f : Fault} (hopen : ∀ x ∈ es, x.IsOpen c name) :
      Watched c name o started (es ++ [⟨.find name c, .error f⟩]) (.failed f)
  | failed {es : List Exchange} {e : Execution} {p : Phase} (hopen : ∀ x ∈ es, x.IsOpen c name)
      (hphase : e.phase? = some p) (hfailed : p = .failed ∨ p = .error) :
      Watched c name o started (es ++ [⟨.find name c, .ok (some e)⟩]) (.failed (.execution 5003
        ("Workflow " ++ name ++ " finished with phase " ++ p.text) (some name)))
  | timedOut {es : List Exchange} {d now : Duration} (hopen : ∀ x ∈ es, x.IsOpen c name)
      (hdeadline : o.deadline = some d) (hover : started.nanos + d.nanos ≤ now.nanos) :
      Watched c name o started (es ++ [⟨.clock, now⟩]) (.failed (.execution 5004
        ("Workflow " ++ name ++ " timed out after " ++ d.messageText) (some name)))
  | stalled {es : List Exchange} (hopen : ∀ x ∈ es, x.IsOpen c name) :
      Watched c name o started es .stalled

/-- What is asked for a graph whose execution is read once, and what comes of it. -/
inductive Temporary (c : EngineConfig) (g : Graph) (o : PollOptions)
    (read : Execution → Outcome α) : List Exchange → Outcome α → Prop
  | refused {f : Fault} : Temporary c g o read [⟨.submit g c, .error f⟩] (.failed f)
  | nameless : Temporary c g o read [⟨.submit g c, .ok none⟩] (.failed (.submission 5002
      ("Problem with submitting workflow " ++ g.generateName ++ ": engine returned no name") none))
  | succeeded {name : String} {started : Duration} {es : List Exchange} {e : Execution}
      {a : Except Fault Unit} (hwatch : Watched c name o started es (.done e)) :
      Temporary c g o read (⟨.submit g c, .ok (some name)⟩ :: ⟨.clock, started⟩ ::
        (es ++ [⟨.delete name c, a⟩])) (read e)
  | failed {name : String} {started : Duration} {es : List Exchange} {f : Fault}
      (hwatch : Watched c name o started es (.failed f)) :
      Temporary c g o read (⟨.submit g c, .ok (some name)⟩ :: ⟨.clock, started⟩ :: es) (.failed f)
  | stalled {name : String} {started : Duration} {es : List Exchange}
      (hwatch : Watched c name o started es .stalled) :
      Temporary c g o read (⟨.submit g c, .ok (some name)⟩ :: ⟨.clock, started⟩ :: es) .stalled

/-- A program that runs a graph only to read its execution. -/
structure Dialogue.CleansUp (d : Dialogue α) (c : EngineConfig) (g : Graph) (o : PollOptions)
    (read : Execution → Outcome α) : Prop where
  ends : ∀ {σ : Type} (w : World σ) (s : σ), (∀ x ∈ d.transcript w s, x.IsNamed) →
    Temporary c g o read (d.transcript w s) (d.run w s).1
  /-- Engines that differ only in what they do when something is dropped are the same to it. -/
  indifferent : ∀ {σ : Type} (w w' : World σ),
    (∀ q, q.IsKeeping → ∀ s, w.answer q s = w'.answer q s) → ∀ s,
      (d.run w s).1 = (d.run w' s).1 ∧
        List.Forall₂ Exchange.Matches (d.transcript w s) (d.transcript w' s)

/-- A program that has ended. -/
def Dialogue.ofOutcome : Outcome α → Dialogue α
  | .done a => .done a
  | .failed f => .failed f
  | .stalled => .stalled

@[simp] theorem Dialogue.runs_ofOutcome {x out : Outcome α} :
    Runs (ofOutcome x) es out ↔ es = [] ∧ out = x := by
  cases x <;> simp [ofOutcome]

@[simp] theorem Dialogue.run_ofOutcome {σ : Type} (w : World σ) (x : Outcome α) (s : σ) :
    ((ofOutcome x).run w s).1 = x := by
  cases x <;> rfl

@[simp] theorem Dialogue.transcript_ofOutcome {σ : Type} (w : World σ) (x : Outcome α) (s : σ) :
    (ofOutcome x).transcript w s = [] := by
  cases x <;> rfl

/-- What comes before leaves a watch as it ends. -/
theorem Watched.after {out : Outcome Execution} (hpre : ∀ x ∈ pre, x.IsOpen c name)
    (h : Watched c name o started es out) : Watched c name o started (pre ++ es) out := by
  cases h with
  | succeeded hopen hphase =>
    rw [← List.append_assoc]
    exact .succeeded (List.forall_mem_append.2 ⟨hpre, hopen⟩) hphase
  | refused hopen =>
    rw [← List.append_assoc]
    exact .refused (List.forall_mem_append.2 ⟨hpre, hopen⟩)
  | failed hopen hphase hfailed =>
    rw [← List.append_assoc]
    exact .failed (List.forall_mem_append.2 ⟨hpre, hopen⟩) hphase hfailed
  | timedOut hopen hdeadline hover =>
    rw [← List.append_assoc]
    exact .timedOut (List.forall_mem_append.2 ⟨hpre, hopen⟩) hdeadline hover
  | stalled hopen => exact .stalled (List.forall_mem_append.2 ⟨hpre, hopen⟩)

namespace Lifecycle

theorem isKeeping_of_isLook (h : IsLook c name q) : q.IsKeeping := by
  cases q with
  | delete => exact h.elim
  | submit | find | list | sleep | clock => rfl

theorem wait_isKeeping : (wait looks c name o).AsksOnly Query.IsKeeping :=
  wait_asksOnly.mono fun _ => isKeeping_of_isLook

theorem runToCompletion_isKeeping : (runToCompletion looks c g o).AsksOnly Query.IsKeeping :=
  runToCompletion_asksOnly rfl fun _ _ => isKeeping_of_isLook

/-- A watch ends with the first look that decides, or at its deadline. -/
theorem watched_of_runs {out : Outcome Execution}
    (h : Runs (watch c name o started looks) es out) : Watched c name o started es out := by
  have hnone : ∀ x ∈ ([] : List Exchange), x.IsOpen c name := List.forall_mem_nil _
  induction looks generalizing es with
  | zero =>
    obtain ⟨rfl, rfl⟩ := runs_stalled.1 h
    exact .stalled hnone
  | succ looks ih =>
    rw [watch_succ] at h
    obtain ⟨_, _, rfl, h₁⟩ := runs_ask.1 h
    obtain ⟨a, rest, rfl, h₂⟩ := runs_ask.1 h₁
    have hsleep : ∀ x ∈ [(⟨.sleep o.interval, ()⟩ : Exchange)], x.IsOpen c name := by
      simp [Exchange.IsOpen]
    refine Watched.after hsleep ?_
    cases a with
    | error f =>
      obtain ⟨rfl, rfl⟩ := runs_failed.1 h₂
      exact @Watched.refused c name o started [] f hnone
    | ok info =>
      dsimp only at h₂
      rcases verdict_cases name info with ⟨e, rfl, he, hv⟩ | ⟨e, p, rfl, he, hp, hv⟩ | ⟨hopen, hv⟩
      · rw [hv] at h₂
        obtain ⟨rfl, rfl⟩ := runs_done.1 h₂
        exact @Watched.succeeded c name o started [] e hnone he
      · rw [hv] at h₂
        obtain ⟨rfl, rfl⟩ := runs_failed.1 h₂
        exact @Watched.failed c name o started [] e p hnone he hp
      · have hlook : ∀ x ∈ [(⟨.find name c, .ok info⟩ : Exchange)], x.IsOpen c name :=
          List.forall_mem_singleton.2 ⟨rfl, rfl, info, rfl, hopen⟩
        refine Watched.after hlook ?_
        rw [hv] at h₂
        cases hd : o.deadline with
        | none =>
          rw [hd] at h₂
          exact ih h₂
        | some deadline =>
          rw [hd] at h₂
          obtain ⟨now, rest, rfl, h₃⟩ := runs_ask.1 h₂
          split at h₃
          · next hover =>
            obtain ⟨rfl, rfl⟩ := runs_failed.1 h₃
            have hover' : started.nanos + deadline.nanos ≤ now.nanos := of_decide_eq_true hover
            exact @Watched.timedOut c name o started [] deadline now hnone hd hover'
          · have hclock : ∀ x ∈ [(⟨.clock, now⟩ : Exchange)], x.IsOpen c name := by
              simp [Exchange.IsOpen]
            exact Watched.after hclock (ih h₃)

/-- A run of a graph ends with its submission, or as the watch of what that has named. -/
theorem runToCompletion_cases {out : Outcome Execution}
    (h : Runs (runToCompletion looks c g o) es out) :
    (∃ f, es = [⟨.submit g c, .error f⟩] ∧ out = .failed f) ∨
      (es = [⟨.submit g c, .ok none⟩] ∧ out = .failed (.submission 5002
        ("Problem with submitting workflow " ++ g.generateName ++ ": engine returned no name")
          none)) ∨
      ∃ name started rest, es = ⟨.submit g c, .ok (some name)⟩ :: ⟨.clock, started⟩ :: rest ∧
        Watched c name o started rest out := by
  rcases runs_bind.1 h with ⟨n, pre, post, rfl, hsubmit, hwait⟩ | ⟨f, rfl, hsubmit⟩ |
    ⟨rfl, hsubmit⟩
  · obtain ⟨started, rest, rfl, hwatch⟩ := runs_ask.1 hwait
    rcases submit_cases hsubmit with ⟨f, -, ⟨⟩⟩ | ⟨-, ⟨⟩⟩ | ⟨name, rfl, ⟨⟩⟩
    exact .inr (.inr ⟨n, started, rest, rfl, watched_of_runs hwatch⟩)
  · rcases submit_cases hsubmit with ⟨f', rfl, ⟨⟩⟩ | ⟨rfl, ⟨⟩⟩ | ⟨name, -, ⟨⟩⟩
    · exact .inl ⟨f, rfl, rfl⟩
    · exact .inr (.inl ⟨rfl, rfl⟩)
  · rcases submit_cases hsubmit with ⟨f, -, ⟨⟩⟩ | ⟨-, ⟨⟩⟩ | ⟨name, -, ⟨⟩⟩

/-- What comes of a graph whose execution is dropped before it is read. -/
theorem temporary_of_runs {out : Outcome α}
    (h : Runs (runToCompletion looks c g o >>= fun e =>
      .ask (.delete e.name c) fun _ => ofOutcome (read e)) es out)
    (hnamed : ∀ x ∈ es, x.IsNamed) : Temporary c g o read es out := by
  rcases runs_bind.1 h with ⟨e, pre, post, rfl, hrun, hpost⟩ | ⟨f, rfl, hrun⟩ | ⟨rfl, hrun⟩
  · obtain ⟨a, last, rfl, hread⟩ := runs_ask.1 hpost
    obtain ⟨rfl, rfl⟩ := runs_ofOutcome.1 hread
    rcases runToCompletion_cases hrun with ⟨f, -, ⟨⟩⟩ | ⟨-, ⟨⟩⟩ | ⟨name, started, rest, rfl, hwatch⟩
    -- What is dropped is what was watched, since the last look has shown it.
    have hname : e.name = name := by
      cases hwatch with
      | succeeded hopen hphase => exact hnamed ⟨.find name c, .ok (some e)⟩ (by simp)
    rw [hname]
    exact .succeeded hwatch
  · rcases runToCompletion_cases hrun with ⟨f', rfl, ⟨⟩⟩ | ⟨rfl, ⟨⟩⟩ |
      ⟨name, started, rest, rfl, hwatch⟩
    · exact .refused
    · exact .nameless
    · exact .failed hwatch
  · rcases runToCompletion_cases hrun with ⟨f, -, ⟨⟩⟩ | ⟨-, ⟨⟩⟩ | ⟨name, started, rest, rfl, hwatch⟩
    exact .stalled hwatch

/-- A graph is run, and its execution is dropped before it is read. -/
theorem cleansUp_completed (looks : Nat) (c : EngineConfig) (g : Graph) (o : PollOptions)
    (read : Execution → Outcome α) :
    CleansUp (runToCompletion looks c g o >>= fun e =>
      .ask (.delete e.name c) fun _ => ofOutcome (read e)) c g o read := by
  constructor
  · intro σ w s hnamed
    exact temporary_of_runs (runs_transcript w _ s) hnamed
  · intro σ w w' hw s
    have hkeeping : (runToCompletion looks c g o).AsksOnly Query.IsKeeping :=
      runToCompletion_isKeeping
    obtain ⟨hrun, htranscript⟩ := run_congr hw hkeeping s
    rw [run_bind, run_bind, transcript_bind, transcript_bind, ← hrun, ← htranscript]
    have hsame : ∀ es : List Exchange, List.Forall₂ Exchange.Matches es es :=
      fun es => List.forall₂_same.2 fun x _ => ⟨rfl, fun _ => rfl⟩
    cases hout : ((runToCompletion looks c g o).run w s).1 with
    | done e =>
      refine ⟨?_, List.rel_append (hsame _) ?_⟩
      · simp [run]
      · simp [transcript, Exchange.Matches, Query.IsKeeping, Query.dropped?]
    | failed f => exact ⟨rfl, hsame _⟩
    | stalled => exact ⟨rfl, hsame _⟩

end Lifecycle

namespace Publish

/-- What a check says once it has succeeded. -/
def reading (id : String) (e : Execution) : Outcome Bool :=
  let output := (e.output? checkName answerParameter).map Text.trim
  if output = some "yes" then .done true
  else if output = some "no" then .done false
  else .failed (.execution 5005 ("Failed to determine publication status for " ++ id ++
    ": " ++ answerParameter ++ " output was " ++ Text.quotedOption output) (some e.name))

theorem reading_eq (id : String) (e : Execution) :
    ofOutcome (reading id e) = match readAnswer? (e.output? checkName answerParameter) with
      | some b => .done b
      | none => .failed (unclear id e (e.output? checkName answerParameter)) := by
  rw [reading, readAnswer?, unclear]
  cases (e.output? checkName answerParameter).map Text.trim with
  | none => simp [ofOutcome, Code.missingOutput]
  | some text =>
    by_cases hyes : text = "yes"
    · subst hyes
      rfl
    · by_cases hno : text = "no"
      · subst hno
        rfl
      · simp [ofOutcome, hyes, hno, Code.missingOutput]

theorem isPublished_eq : isPublished looks c o id =
    Lifecycle.runToCompletion looks c (checkGraph id) o >>= fun e =>
      .ask (.delete e.name c) fun _ => ofOutcome (reading id e) := by
  rw [isPublished]
  refine congrArg (_ >>= ·) (funext fun e => ?_)
  refine congrArg (Dialogue.ask _) (funext fun a => ?_)
  rw [reading_eq]
  rfl

theorem remove_eq : remove looks c o id =
    Lifecycle.runToCompletion looks c (clearGraph id) o >>= fun e =>
      .ask (.delete e.name c) fun _ => ofOutcome (.done ()) :=
  rfl

/-- A check and a removal each run one graph, drop its execution as the last thing if they have seen
it succeed, and come to the same whether or not it can be dropped. -/
theorem cleansUp (looks : Nat) (c : EngineConfig) (o : PollOptions) (id : String) :
    CleansUp (isPublished looks c o id) c (checkGraph id) o (reading id) ∧
      CleansUp (remove looks c o id) c (clearGraph id) o fun _ => .done () := by
  rw [isPublished_eq, remove_eq]
  exact ⟨Lifecycle.cleansUp_completed looks c (checkGraph id) o (reading id),
    Lifecycle.cleansUp_completed looks c (clearGraph id) o fun _ => .done ()⟩

/-- The execution of a check whose output is neither yes nor no. -/
def vague : Execution :=
  ⟨"wf", some .succeeded, [(checkName, [(answerParameter, "maybe")])]⟩

/-- Each execution is `vague`, and dropping it comes to a given answer. -/
def vagueWorld (dropped : Except Fault Unit) : World Unit where
  answer
    | .submit .., s => (.ok (some "wf"), s)
    | .find .., s => (.ok (some vague), s)
    | .delete .., s => (dropped, s)
    | .list _, s => (.ok [], s)
    | .sleep _, s => ((), s)
    | .clock, s => (⟨0⟩, s)

theorem vagueWorld_keeping (dropped dropped' : Except Fault Unit) (q : Query) (hq : q.IsKeeping)
    (s : Unit) : (vagueWorld dropped).answer q s = (vagueWorld dropped').answer q s := by
  cases q with
  | delete => cases hq
  | submit | find | list | sleep | clock => rfl

/-- A check that says neither yes nor no, and whose execution cannot be dropped. -/
theorem cleansUp_vague :
    (∀ x ∈ (isPublished 1 {} {} "r").transcript (vagueWorld (.error (.transport "down"))) (),
      x.IsNamed) ∧
    Temporary {} (checkGraph "r") {} (reading "r")
      [⟨.submit (checkGraph "r") {}, .ok (some "wf")⟩, ⟨.clock, ⟨0⟩⟩,
        ⟨.sleep (.ofSeconds 5), ()⟩, ⟨.find "wf" {}, .ok (some vague)⟩,
        ⟨.delete "wf" {}, .error (.transport "down")⟩]
      (.failed (.execution 5005 ("Failed to determine publication status for r: " ++
        answerParameter ++ " output was Some(\"maybe\")") (some "wf"))) ∧
    ((isPublished 1 {} {} "r").run (vagueWorld (.error (.transport "down"))) ()).1 =
      ((isPublished 1 {} {} "r").run (vagueWorld (.ok ())) ()).1 := by
  have htranscript : (isPublished 1 {} {} "r").transcript
      (vagueWorld (.error (.transport "down"))) () =
        [⟨.submit (checkGraph "r") {}, .ok (some "wf")⟩, ⟨.clock, ⟨0⟩⟩,
          ⟨.sleep (.ofSeconds 5), ()⟩, ⟨.find "wf" {}, .ok (some vague)⟩,
          ⟨.delete "wf" {}, .error (.transport "down")⟩] := rfl
  have hnamed : ∀ x ∈ (isPublished 1 {} {} "r").transcript
      (vagueWorld (.error (.transport "down"))) (), x.IsNamed := by
    rw [htranscript]
    simp [Exchange.IsNamed, vague]
  exact ⟨hnamed, (cleansUp 1 {} {} "r").1.ends _ () hnamed,
    ((cleansUp 1 {} {} "r").1.indifferent _ _ (vagueWorld_keeping _ _) ()).1⟩

end Publish

end RecipeFlow
