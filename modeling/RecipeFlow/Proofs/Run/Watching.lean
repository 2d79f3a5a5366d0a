import RecipeFlow.Proofs.Run.Transcript
import RecipeFlow.Run.Lifecycle

/-! What is asked while an execution is submitted and watched, and what a success stands on. -/
namespace RecipeFlow

/-- An answer that lets a program go on: no error, a name for what was submitted, no failed
execution. Whether something could be dropped does not matter. -/
def Exchange.IsFine : Exchange → Prop
  | ⟨.submit .., a⟩ => ∃ name, a = .ok (some name)
  | ⟨.find .., a⟩ => ∃ info, a = .ok info ∧ (Lifecycle.phaseOf info).isFailure = false
  | ⟨.list _, a⟩ => ∃ objects, a = .ok objects
  | ⟨.delete .., _⟩ | ⟨.sleep _, _⟩ | ⟨.clock, _⟩ => True

namespace Dialogue

variable {α β : Type} {d : Dialogue α} {k : α → Dialogue β}

/-- Behind an answer that is not fine a program has no result. -/
def Heeds (d : Dialogue α) : Prop :=
  ∀ es a, Runs d es (.done a) → ∀ x ∈ es, x.IsFine

theorem heeds_pure (a : α) : Heeds (pure a : Dialogue α) := by
  intro es b h
  simp [(runs_pure.1 h).1]

theorem heeds_failed (f : Fault) : Heeds (.failed f : Dialogue α) := by
  intro es a h
  simp [(runs_failed.1 h).1]

theorem heeds_ofExcept (x : Except Fault α) : Heeds (ofExcept x) := by
  intro es a h
  simp [(runs_ofExcept.1 h).1]

theorem heeds_bind (hd : Heeds d) (hk : ∀ a, Heeds (k a)) : Heeds (d >>= k) := by
  intro es b h
  obtain ⟨a, pre, post, rfl, hpre, hpost⟩ := runs_bind_done.1 h
  intro x hx
  rcases List.mem_append.1 hx with hx | hx
  · exact hd pre a hpre x hx
  · exact hk a post b hpost x hx

theorem heeds_mapFault {g : Fault → Fault} (hd : Heeds d) : Heeds (d.mapFault g) := by
  intro es a h
  obtain ⟨o, ho, hdone⟩ := runs_mapFault h
  exact hd es a (hdone a rfl ▸ ho)

theorem heeds_list (dataset : String) : Heeds (list dataset) := by
  intro es a h
  obtain ⟨r, rest, rfl, hrest⟩ := runs_ask.1 h
  obtain ⟨rfl, hr⟩ := runs_ofExcept.1 hrest
  cases r with
  | ok objects => simp [Exchange.IsFine]
  | error f => cases hr

theorem heeds_discard (name : String) (c : EngineConfig) : Heeds (discard name c) := by
  intro es a h
  obtain ⟨r, rest, rfl, hrest⟩ := runs_ask.1 h
  obtain ⟨rfl, _⟩ := runs_done.1 hrest
  simp [Exchange.IsFine]

end Dialogue

namespace Lifecycle

open Dialogue

variable {c : EngineConfig} {name : String} {o : PollOptions} {g : Graph} {looks : Nat}
  {started : Duration} {es : List Exchange} {out : Outcome Execution}

/-- What watching an execution asks. -/
def IsLook (c : EngineConfig) (name : String) : Query → Prop
  | .find n c' => n = name ∧ c' = c
  | .sleep _ | .clock => True
  | .submit .. | .delete .. | .list _ => False

/-- A submission is one question: it is refused, or not told a name, or told one. -/
theorem submit_cases {out : Outcome String} (h : Runs (submit c g) es out) :
    (∃ f, es = [⟨.submit g c, .error f⟩] ∧ out = .failed f) ∨
      (es = [⟨.submit g c, .ok none⟩] ∧ out = .failed (.submission 5002
        ("Problem with submitting workflow " ++ g.generateName ++ ": engine returned no name")
          none)) ∨
      ∃ n, es = [⟨.submit g c, .ok (some n)⟩] ∧ out = .done n := by
  obtain ⟨a, rest, rfl, hrest⟩ := runs_ask.1 h
  rcases a with f | _ | n
  · obtain ⟨rfl, rfl⟩ := runs_failed.1 hrest
    exact .inl ⟨f, rfl, rfl⟩
  · obtain ⟨rfl, rfl⟩ := runs_failed.1 hrest
    exact .inr (.inl ⟨rfl, rfl⟩)
  · obtain ⟨rfl, rfl⟩ := runs_done.1 hrest
    exact .inr (.inr ⟨n, rfl, rfl⟩)

/-- Only a name answers a submission well. -/
theorem runs_submit {out : Outcome String} (h : Runs (submit c g) es out) :
    ∃ a, es = [⟨.submit g c, a⟩] ∧ ∀ n, out = .done n → a = .ok (some n) := by
  rcases submit_cases h with ⟨f, rfl, rfl⟩ | ⟨rfl, rfl⟩ | ⟨n, rfl, rfl⟩
  · exact ⟨_, rfl, nofun⟩
  · exact ⟨_, rfl, nofun⟩
  · refine ⟨_, rfl, ?_⟩
    rintro _ ⟨⟩
    rfl

/-- What an answer decides: it shows a success, or a failure, or no last phase at all. -/
theorem verdict_cases (name : String) (info : Option Execution) :
    (∃ e, info = some e ∧ e.phase? = some .succeeded ∧ verdict name info = .succeeded e) ∨
      (∃ e p, info = some e ∧ e.phase? = some p ∧ (p = .failed ∨ p = .error) ∧
        verdict name info = .failed (failure name p)) ∨
      ((∀ e p, info = some e → e.phase? = some p → p.isTerminal = false) ∧
        verdict name info = .running) := by
  cases info with
  | none => exact .inr (.inr ⟨nofun, rfl⟩)
  | some e =>
    obtain ⟨n, phase, outputs⟩ := e
    rcases phase with _ | _ | _ | _ | _ | _ | text
    case none => exact .inr (.inr ⟨by rintro _ _ ⟨⟩ ⟨⟩, rfl⟩)
    case some.succeeded => exact .inl ⟨_, rfl, rfl, rfl⟩
    case some.failed => exact .inr (.inl ⟨_, _, rfl, rfl, .inl rfl, rfl⟩)
    case some.error => exact .inr (.inl ⟨_, _, rfl, rfl, .inr rfl, rfl⟩)
    all_goals exact .inr (.inr ⟨by rintro _ _ ⟨⟩ ⟨⟩; rfl, rfl⟩)

theorem verdict_succeeded {info : Option Execution} {e : Execution}
    (h : verdict name info = .succeeded e) : info = some e ∧ e.phase = .succeeded := by
  unfold verdict at h
  grind

theorem verdict_running {info : Option Execution} (h : verdict name info = .running) :
    (phaseOf info).isFailure = false := by
  unfold verdict at h
  cases info with
  | none => rfl
  | some e =>
    simp only [phaseOf]
    grind

/-- One round of watching: sleep, look, and then perhaps a glance at the clock. -/
theorem watch_succ : watch c name o started (looks + 1) =
    .ask (.sleep o.interval) fun _ => .ask (.find name c) fun a => match a with
      | .error f => .failed f
      | .ok info => match verdict name info with
        | .succeeded e => .done e
        | .failed f => .failed f
        | .running => match o.deadline with
          | none => watch c name o started looks
          | some d => .ask .clock fun now =>
            if isOver started now d then .failed (timeout name d)
            else watch c name o started looks := by
  rw [watch]
  refine congrArg (Dialogue.ask (.sleep o.interval)) (funext fun _ => ?_)
  refine congrArg (Dialogue.ask (.find name c)) (funext fun a => ?_)
  cases a with
  | error f => rfl
  | ok info =>
    simp only [Dialogue.ofExcept, Dialogue.bind]
    cases verdict name info with
    | succeeded e => rfl
    | failed f => rfl
    | running => cases o.deadline <;> rfl

theorem watch_asksOnly : (watch c name o started looks).AsksOnly (IsLook c name) := by
  induction looks with
  | zero => trivial
  | succ looks ih =>
    rw [watch_succ]
    refine ⟨trivial, fun _ => ⟨⟨rfl, rfl⟩, fun a => ?_⟩⟩
    cases a with
    | error f => trivial
    | ok info =>
      dsimp only
      cases verdict name info with
      | succeeded e => trivial
      | failed f => trivial
      | running =>
        cases o.deadline with
        | none => exact ih
        | some d =>
          refine ⟨trivial, fun now => ?_⟩
          dsimp only
          split
          · trivial
          · exact ih

theorem wait_asksOnly : (wait looks c name o).AsksOnly (IsLook c name) :=
  ⟨trivial, fun _ => watch_asksOnly⟩

theorem submit_asksOnly {P : Query → Prop} (h : P (.submit g c)) : (submit c g).AsksOnly P := by
  refine ⟨h, fun a => ?_⟩
  rcases a with f | _ | n
  · trivial
  · trivial
  · trivial

theorem runToCompletion_asksOnly {P : Query → Prop} (h : P (.submit g c))
    (hlook : ∀ name q, IsLook c name q → P q) : (runToCompletion looks c g o).AsksOnly P :=
  asksOnly_bind (submit_asksOnly h) fun n => wait_asksOnly.mono (hlook n)

/-- A watch that ends well ends with the look that saw the success; nothing was wrong before. -/
theorem watch_done {e : Execution} (h : Runs (watch c name o started looks) es (.done e)) :
    (∀ x ∈ es, x.IsFine) ∧ e.phase = .succeeded ∧
      ∃ before, es = before ++ [⟨.find name c, .ok (some e)⟩] := by
  induction looks generalizing es with
  | zero => cases (runs_stalled.1 h).2
  | succ looks ih =>
    rw [watch_succ] at h
    obtain ⟨_, _, rfl, h₁⟩ := runs_ask.1 h
    obtain ⟨a, rest, rfl, h₂⟩ := runs_ask.1 h₁
    cases a with
    | error f => cases (runs_failed.1 h₂).2
    | ok info =>
      dsimp only at h₂
      cases hv : verdict name info with
      | succeeded e' =>
        rw [hv] at h₂
        obtain ⟨rfl, ho⟩ := runs_done.1 h₂
        cases ho
        obtain ⟨rfl, he⟩ := verdict_succeeded hv
        refine ⟨?_, he, [⟨.sleep o.interval, ()⟩], rfl⟩
        simp [Exchange.IsFine, phaseOf, he, Phase.isFailure]
      | failed f =>
        rw [hv] at h₂
        cases (runs_failed.1 h₂).2
      | running =>
        have hfine : Exchange.IsFine ⟨.find name c, .ok info⟩ := ⟨info, rfl, verdict_running hv⟩
        rw [hv] at h₂
        cases hd : o.deadline with
        | none =>
          rw [hd] at h₂
          obtain ⟨hf, he, before, rfl⟩ := ih h₂
          refine ⟨?_, he, ⟨.sleep o.interval, ()⟩ :: ⟨.find name c, .ok info⟩ :: before, rfl⟩
          exact List.forall_mem_cons.2 ⟨trivial, List.forall_mem_cons.2 ⟨hfine, hf⟩⟩
        | some d =>
          rw [hd] at h₂
          obtain ⟨now, rest', rfl, h₃⟩ := runs_ask.1 h₂
          split at h₃
          · cases (runs_failed.1 h₃).2
          · obtain ⟨hf, he, before, rfl⟩ := ih h₃
            refine ⟨?_, he, ⟨.sleep o.interval, ()⟩ :: ⟨.find name c, .ok info⟩ ::
              ⟨.clock, now⟩ :: before, rfl⟩
            exact List.forall_mem_cons.2 ⟨trivial, List.forall_mem_cons.2 ⟨hfine,
              List.forall_mem_cons.2 ⟨trivial, hf⟩⟩⟩

end Lifecycle

end RecipeFlow
