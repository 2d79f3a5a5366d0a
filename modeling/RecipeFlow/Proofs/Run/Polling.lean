import Mathlib.Data.Nat.Find
import Mathlib.Order.Bounds.Defs
import RecipeFlow.Engine.Simulated
import RecipeFlow.Proofs.Run.Deadline

/-! When a wait for an execution ends, and with what. The first look that ends it decides: its
answer does if it is an error or a last phase, and the deadline does only if the answer leaves the
matter open. -/
namespace RecipeFlow

open Dialogue

/-- What a wait meets: the answers to its looks, counted from one, and what the clock shows behind
each sleep. Reading zero is the one at the start. -/
structure Course where
  answer : ℕ → Except Fault (Option Execution)
  clock : ℕ → Duration
  clock_mono : Monotone fun n => (clock n).nanos

namespace Course

variable {s : Course} {o : PollOptions} {name : String} {c : EngineConfig} {n k looks : ℕ}

/-- How often one has slept, and looked. -/
structure Tally where
  sleeps : ℕ
  looks : ℕ

/-- The world of a course. Only sleeps move its clock. -/
def world (s : Course) : World Tally where
  answer
    | .find .., g => (s.answer (g.looks + 1), { g with looks := g.looks + 1 })
    | .clock, g => (s.clock g.sleeps, g)
    | .submit .., g => (.ok none, g)
    | .delete .., g => (.ok (), g)
    | .list _, g => (.ok [], g)
    | .sleep _, g => ((), { g with sleeps := g.sleeps + 1 })

/-- How long the wait has lasted behind a look, which has a sleep of its own in front of it. -/
def elapsed (s : Course) (n : ℕ) : Duration :=
  ⟨(s.clock n).nanos - (s.clock 0).nanos⟩

/-- A look that ends the wait: it fails, or it shows a last phase, or the deadline is over. -/
def Ends (s : Course) (o : PollOptions) (n : ℕ) : Prop :=
  (∃ f, s.answer n = .error f) ∨
    (∃ e p, s.answer n = .ok (some e) ∧ e.phase? = some p ∧ p.isTerminal) ∨
      ∃ d, o.deadline = some d ∧ d.nanos ≤ (s.elapsed n).nanos

/-- What a wait comes to that ends with a look. -/
inductive Concludes (s : Course) (name : String) (o : PollOptions) (n : ℕ) :
    Outcome Execution → Prop
  | refused {f : Fault} (ha : s.answer n = .error f) : Concludes s name o n (.failed f)
  | succeeded {e : Execution} (ha : s.answer n = .ok (some e))
      (hp : e.phase? = some .succeeded) : Concludes s name o n (.done e)
  | failed {e : Execution} {p : Phase} (ha : s.answer n = .ok (some e)) (hp : e.phase? = some p)
      (hfailed : p = .failed ∨ p = .error) :
      Concludes s name o n (.failed (.execution 5003
        ("Workflow " ++ name ++ " finished with phase " ++ p.text) (some name)))
  | timedOut {info : Option Execution} {d : Duration} (ha : s.answer n = .ok info)
      (hopen : ∀ e p, info = some e → e.phase? = some p → p.isTerminal = false)
      (hd : o.deadline = some d) (hover : d.nanos ≤ (s.elapsed n).nanos) :
      Concludes s name o n (.failed (.execution 5004
        ("Workflow " ++ name ++ " timed out after " ++ d.messageText) (some name)))

/-- Time never runs backwards, so the deadline is over when the wait has lasted as long. -/
theorem isOver_iff {d : Duration} :
    Lifecycle.isOver (s.clock 0) (s.clock n) d = true ↔ d.nanos ≤ (s.elapsed n).nanos := by
  have hmono : (s.clock 0).nanos ≤ (s.clock n).nanos := s.clock_mono (Nat.zero_le n)
  simp only [Lifecycle.isOver, elapsed, decide_eq_true_eq]
  omega

theorem isTimed_world (s : Course) : s.world.IsTimed fun g => s.clock g.sleeps where
  shows _ := rfl
  mono q g := by
    cases q with
    | sleep time => exact s.clock_mono (Nat.le_succ g.sleeps)
    | submit | find | delete | list | clock => exact Nat.le_refl _

theorem passes_world {time : Duration} {i : ℕ}
    (h : ∀ k, (s.clock k).nanos + i ≤ (s.clock (k + 1)).nanos) :
    s.world.Passes (fun g => s.clock g.sleeps) time i :=
  fun g => h g.sleeps

end Course

namespace Lifecycle

variable {s : Course} {o : PollOptions} {name : String} {c : EngineConfig} {n k looks : ℕ}

/-- A round of the watch ends it, or leads to the next one. -/
theorem watch_round (s : Course) (c : EngineConfig) (name : String) (o : PollOptions)
    (looks k : ℕ) :
    (s.Ends o (k + 1) ∧ ∃ out, s.Concludes name o (k + 1) out ∧
      (watch c name o (s.clock 0) (looks + 1)).run s.world ⟨k, k⟩ = (out, ⟨k + 1, k + 1⟩) ∧
      engineCalls ((watch c name o (s.clock 0) (looks + 1)).transcript s.world ⟨k, k⟩) =
        [.find name c]) ∨
    (¬ s.Ends o (k + 1) ∧
      (watch c name o (s.clock 0) (looks + 1)).run s.world ⟨k, k⟩ =
        (watch c name o (s.clock 0) looks).run s.world ⟨k + 1, k + 1⟩ ∧
      engineCalls ((watch c name o (s.clock 0) (looks + 1)).transcript s.world ⟨k, k⟩) =
        .find name c ::
          engineCalls ((watch c name o (s.clock 0) looks).transcript s.world ⟨k + 1, k + 1⟩)) := by
  rw [watch_succ]
  simp only [run, transcript, Course.world]
  cases ha : s.answer (k + 1) with
  | error f => exact .inl ⟨.inl ⟨f, ha⟩, _, .refused ha, rfl, rfl⟩
  | ok info =>
    rcases verdict_cases name info with ⟨e, rfl, he, hv⟩ | ⟨e, p, rfl, he, hp, hv⟩ | ⟨hopen, hv⟩
    · simp only [hv]
      exact .inl ⟨.inr (.inl ⟨e, _, ha, he, rfl⟩), _, .succeeded ha he, rfl, rfl⟩
    · have hlast : p.isTerminal := by
        rcases hp with rfl | rfl
        · rfl
        · rfl
      simp only [hv]
      exact .inl ⟨.inr (.inl ⟨e, p, ha, he, hlast⟩), _, .failed ha he hp, rfl, rfl⟩
    · -- Nothing but the deadline can end the wait here.
      have hends : s.Ends o (k + 1) ↔ ∃ d, o.deadline = some d ∧
          d.nanos ≤ (s.elapsed (k + 1)).nanos := by
        constructor
        · rintro (⟨f, hf⟩ | ⟨e, p, he, hp, hlast⟩ | hover)
          · cases ha.symm.trans hf
          · cases ha.symm.trans he
            rw [hopen e p rfl hp] at hlast
            cases hlast
          · exact hover
        · exact fun hover => .inr (.inr hover)
      rw [hends]
      simp only [hv]
      cases hd : o.deadline with
      | none => exact .inr ⟨by rintro ⟨d, ⟨⟩, -⟩, rfl, rfl⟩
      | some d =>
        simp only [run, transcript]
        split
        · next hover =>
          have hover' := Course.isOver_iff.1 hover
          exact .inl ⟨⟨d, rfl, hover'⟩, _, .timedOut ha hopen hd hover', rfl, rfl⟩
        · next hover =>
          refine .inr ⟨?_, rfl, rfl⟩
          rintro ⟨d', ⟨⟩, hover'⟩
          exact hover (Course.isOver_iff.2 hover')

/-- Up to the look that ends it a watch asks for nothing but the state of the execution. -/
theorem watch_until (hends : s.Ends o n) (hkn : k < n)
    (hopen : ∀ j, k < j → j < n → ¬ s.Ends o j) (hlooks : n ≤ k + looks) :
    s.Concludes name o n ((watch c name o (s.clock 0) looks).run s.world ⟨k, k⟩).1 ∧
      engineCalls ((watch c name o (s.clock 0) looks).transcript s.world ⟨k, k⟩) =
        List.replicate (n - k) (.find name c) := by
  induction looks generalizing k with
  | zero => omega
  | succ looks ih =>
    rcases watch_round s c name o looks k with ⟨hend, out, hout, hrun, hcalls⟩ |
      ⟨hgo, hrun, hcalls⟩
    · obtain rfl : n = k + 1 := by
        by_contra hne
        exact hopen (k + 1) (by omega) (by omega) hend
      rw [hrun, hcalls, Nat.add_sub_cancel_left]
      exact ⟨hout, rfl⟩
    · have hkn' : k + 1 < n := by
        by_contra hle
        obtain rfl : n = k + 1 := by omega
        exact hgo hends
      obtain ⟨hout, hrest⟩ := ih hkn' (fun j hj => hopen j (by omega)) (by omega)
      rw [hrun, hcalls, hrest, ← List.replicate_succ]
      exact ⟨hout, congrArg (List.replicate · _) (by omega)⟩

/-- A watch that no look ends goes on for as long as it may. -/
theorem watch_forever (hopen : ∀ j, k < j → j ≤ k + looks → ¬ s.Ends o j) :
    ((watch c name o (s.clock 0) looks).run s.world ⟨k, k⟩).1 = .stalled ∧
      engineCalls ((watch c name o (s.clock 0) looks).transcript s.world ⟨k, k⟩) =
        List.replicate looks (.find name c) := by
  induction looks generalizing k with
  | zero => exact ⟨rfl, rfl⟩
  | succ looks ih =>
    rcases watch_round s c name o looks k with ⟨hend, -⟩ | ⟨-, hrun, hcalls⟩
    · exact absurd hend (hopen (k + 1) (by omega) (by omega))
    · have hopen' : ∀ j, k + 1 < j → j ≤ k + 1 + looks → ¬ s.Ends o j :=
        fun j hj hle => hopen j (by omega) (by omega)
      obtain ⟨hout, hrest⟩ := ih hopen'
      rw [hrun, hcalls, hrest]
      exact ⟨hout, rfl⟩

/-- A wait ends with the first look that ends it. -/
theorem wait_until (c : EngineConfig) (name : String) (h : IsLeast {k | 1 ≤ k ∧ s.Ends o k} n)
    (hlooks : n ≤ looks) :
    s.Concludes name o n ((wait looks c name o).run s.world ⟨0, 0⟩).1 ∧
      engineCalls ((wait looks c name o).transcript s.world ⟨0, 0⟩) =
        List.replicate n (.find name c) := by
  obtain ⟨⟨hpos, hends⟩, hleast⟩ := h
  refine watch_until hends hpos ?_ (by omega)
  intro j hj hjn hend
  have hle : n ≤ j := hleast ⟨hj, hend⟩
  omega

theorem wait_forever (c : EngineConfig) (name : String) (h : ∀ k, 1 ≤ k → ¬ s.Ends o k)
    (looks : ℕ) :
    ((wait looks c name o).run s.world ⟨0, 0⟩).1 = .stalled ∧
      engineCalls ((wait looks c name o).transcript s.world ⟨0, 0⟩) =
        List.replicate looks (.find name c) :=
  watch_forever fun j hj _ => h j hj

/-- A look that ends the wait comes as soon as the sleeps reach the deadline. -/
theorem exists_isLeast {d : Duration} {i : ℕ} (hd : o.deadline = some d) (hi : 0 < i)
    (h : ∀ k, (s.clock k).nanos + i ≤ (s.clock (k + 1)).nanos) :
    ∃ n, IsLeast {k | 1 ≤ k ∧ s.Ends o k} n ∧ n ≤ max 1 (d.nanos ⌈/⌉ i) := by
  classical
  obtain ⟨n, -, hn, hend⟩ :=
    wait_endsAfter s.isTimed_world (Course.passes_world h) hi hd {} "" ⟨0, 0⟩
  have hex : ∃ k, 1 ≤ k ∧ s.Ends o k := by
    by_contra hnone
    have hopen : ∀ k, 1 ≤ k → ¬ s.Ends o k := fun k hk hends => hnone ⟨k, hk, hends⟩
    exact (hend n (Nat.le_refl n)).1 (wait_forever {} "" hopen n).1
  have hleast : IsLeast {k | 1 ≤ k ∧ s.Ends o k} (Nat.find hex) :=
    ⟨Nat.find_spec hex, fun k hk => Nat.find_min' hex hk⟩
  refine ⟨Nat.find hex, hleast, ?_⟩
  -- The wait makes one call for each look, so it ends with the look that it is known to end with.
  obtain ⟨-, hcalls⟩ := hend (max n (Nat.find hex)) (Nat.le_max_left _ _)
  have hcalls' := (wait_until {} "" hleast (Nat.le_max_right n _)).2
  have hsame : Nat.find hex = n := by
    simpa using congrArg List.length (hcalls'.symm.trans hcalls)
  rwa [hsame]

/-- A wait ends with the first look that ends it, and comes to what that look shows. It makes one
call for each look and no other, and goes on for ever if no look ends it. With a deadline, and
sleeps that take `i` at least, there is such a look and it is not late; so a wait ends as early in
every world where they do. -/
theorem wait_concludes (s : Course) (c : EngineConfig) (name : String) (o : PollOptions) :
    (∀ n, IsLeast {k | 1 ≤ k ∧ s.Ends o k} n → ∀ looks, n ≤ looks →
      s.Concludes name o n ((wait looks c name o).run s.world ⟨0, 0⟩).1 ∧
        engineCalls ((wait looks c name o).transcript s.world ⟨0, 0⟩) =
          List.replicate n (.find name c)) ∧
    ((∀ k, 1 ≤ k → ¬ s.Ends o k) → ∀ looks,
      ((wait looks c name o).run s.world ⟨0, 0⟩).1 = .stalled ∧
        engineCalls ((wait looks c name o).transcript s.world ⟨0, 0⟩) =
          List.replicate looks (.find name c)) ∧
    ∀ d i, o.deadline = some d → 0 < i →
      ((∀ k, (s.clock k).nanos + i ≤ (s.clock (k + 1)).nanos) →
        ∃ n, IsLeast {k | 1 ≤ k ∧ s.Ends o k} n ∧ n ≤ max 1 (d.nanos ⌈/⌉ i)) ∧
      ∀ {σ : Type} (w : World σ) (now : σ → Duration), w.IsTimed now →
        w.Passes now o.interval i → ∀ t, ∃ n, 1 ≤ n ∧ n ≤ max 1 (d.nanos ⌈/⌉ i) ∧
          EndsAfter w c name n (fun looks => wait looks c name o) t := by
  refine ⟨fun n h looks => wait_until c name h, wait_forever c name, ?_⟩
  intro d i hd hi
  refine ⟨exists_isLeast hd hi, ?_⟩
  exact fun w now hw hpass t => wait_endsAfter hw hpass hi hd c name t

/-- The execution is not known at first, then in no phase that is known, and it has succeeded when
the deadline is over. -/
def lateSuccess : Course where
  answer
    | 0 | 1 => .ok none
    | 2 => .ok (some ⟨"wf", some (.unknown ""), []⟩)
    | _ => .ok (some ⟨"wf", some .succeeded, []⟩)
  clock n := ⟨10 * n⟩
  clock_mono _ _ h := Nat.mul_le_mul_left 10 h

/-- The execution never gets known. -/
def neverKnown : Course where
  answer _ := .ok none
  clock n := ⟨n⟩
  clock_mono _ _ h := h

def untilThirty : PollOptions where
  interval := ⟨10⟩
  deadline := some ⟨30⟩

theorem isLeast_lateSuccess : IsLeast {k | 1 ≤ k ∧ lateSuccess.Ends untilThirty k} 3 := by
  refine ⟨⟨by decide, .inr (.inl ⟨_, _, rfl, rfl, rfl⟩)⟩, ?_⟩
  rintro k ⟨hpos, hends⟩
  by_contra hlt
  obtain rfl | rfl : k = 1 ∨ k = 2 := by omega
  · rcases hends with ⟨f, ⟨⟩⟩ | ⟨e, p, ⟨⟩, -⟩ | ⟨d, ⟨⟩, hover⟩
    exact absurd hover (by decide)
  · rcases hends with ⟨f, ⟨⟩⟩ | ⟨e, p, ⟨⟩, ⟨⟩, ⟨⟩⟩ | ⟨d, ⟨⟩, hover⟩
    exact absurd hover (by decide)

theorem not_ends_neverKnown (k : ℕ) : ¬ neverKnown.Ends {} k := by
  rintro (⟨f, ⟨⟩⟩ | ⟨e, p, ⟨⟩, -⟩ | ⟨d, ⟨⟩, -⟩)

theorem wait_concludes_late :
    (lateSuccess.Concludes "wf" untilThirty 3 (.done ⟨"wf", some .succeeded, []⟩) ∧
      engineCalls ((wait 5 {} "wf" untilThirty).transcript lateSuccess.world ⟨0, 0⟩) =
        [.find "wf" {}, .find "wf" {}, .find "wf" {}]) ∧
    (∃ n, IsLeast {k | 1 ≤ k ∧ lateSuccess.Ends untilThirty k} n ∧ n ≤ 3) ∧
    (∀ looks, ((wait looks {} "wf" {}).run neverKnown.world ⟨0, 0⟩).1 = .stalled ∧
      engineCalls ((wait looks {} "wf" {}).transcript neverKnown.world ⟨0, 0⟩) =
        List.replicate looks (.find "wf" {})) ∧
    ∃ n, 1 ≤ n ∧ n ≤ 3 ∧ EndsAfter (.ofParts SimulatedEngine.engine (.ofTable [])) {} "wf" n
      (fun looks => wait looks {} "wf" untilThirty) ⟨{}, ⟨0⟩⟩ :=
  ⟨(wait_concludes lateSuccess {} "wf" untilThirty).1 3 isLeast_lateSuccess 5 (by decide),
    ((wait_concludes lateSuccess {} "wf" untilThirty).2.2 ⟨30⟩ 10 rfl (by decide)).1
      fun _ => Nat.le_refl _,
    (wait_concludes neverKnown {} "wf" {}).2.1 fun k _ => not_ends_neverKnown k,
    ((wait_concludes neverKnown {} "wf" untilThirty).2.2 ⟨30⟩ 10 rfl (by decide)).2 _ Clocked.now
      (World.isTimed_ofParts _ _) (World.passes_ofParts _ _ _) _⟩

end Lifecycle

end RecipeFlow
