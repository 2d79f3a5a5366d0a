import Mathlib.Algebra.Order.Floor.Div
import RecipeFlow.Proofs.Run.Watching
import RecipeFlow.Run.World

/-! Where sleeping takes time, a deadline ends every wait. There is a sleep in front of each look,
so there are no more looks than it takes sleeps to reach the deadline. -/
namespace RecipeFlow

open Dialogue

variable {σ : Type} {w : World σ} {now : σ → Duration}

namespace World

/-- The clock shows the time of the state, which never runs backwards. -/
structure IsTimed (w : World σ) (now : σ → Duration) : Prop where
  shows : ∀ s, (w.answer .clock s).1 = now s
  mono : ∀ q s, (now s).nanos ≤ (now (w.answer q s).2).nanos

/-- A sleep of some time takes `i` at least. -/
def Passes (w : World σ) (now : σ → Duration) (time : Duration) (i : ℕ) : Prop :=
  ∀ s, (now s).nanos + i ≤ (now (w.answer (.sleep time) s).2).nanos

variable (e : Engine σ) (r : Dataset.Resolver σ)

theorem isTimed_ofParts : (ofParts e r).IsTimed Clocked.now where
  shows _ := rfl
  mono q s := by
    cases q with
    | sleep time => exact Nat.le_add_right _ _
    | submit | find | delete | list | clock => exact Nat.le_refl _

theorem passes_ofParts (time : Duration) : (ofParts e r).Passes Clocked.now time time.nanos :=
  fun _ => Nat.le_refl _

end World

namespace Lifecycle

/-- A program that looks at an execution so many times at most ends when it has looked `n` times, if
it may, and calls the engine for nothing else. -/
def EndsAfter (w : World σ) (c : EngineConfig) (name : String) (n : ℕ)
    (p : ℕ → Dialogue Execution) (s : σ) : Prop :=
  ∀ looks, n ≤ looks → ((p looks).run w s).1 ≠ .stalled ∧
    engineCalls ((p looks).transcript w s) = List.replicate n (.find name c)

variable {c : EngineConfig} {name : String} {o : PollOptions} {started d : Duration} {i m n : ℕ}
  {p : ℕ → Dialogue Execution} {s : σ}

theorem endsAfter_succ : EndsAfter w c name (n + 1) p s ↔ ∀ looks, n ≤ looks →
    ((p (looks + 1)).run w s).1 ≠ .stalled ∧
      engineCalls ((p (looks + 1)).transcript w s) = .find name c :: List.replicate n (.find name c)
    := by
  constructor
  · exact fun h looks hlooks => h (looks + 1) (Nat.succ_le_succ hlooks)
  · rintro h (_ | looks) hlooks
    · exact absurd hlooks (Nat.not_succ_le_zero n)
    · exact h looks (Nat.le_of_succ_le_succ hlooks)

/-- A round of the watch ends it, or leads to the next one. The deadline is then not over when the
sleep is, and the next round starts no earlier. -/
theorem watch_timed_round (hw : w.IsTimed now) (hd : o.deadline = some d) (c : EngineConfig)
    (name : String) (started : Duration) (s : σ) :
    EndsAfter w c name 1 (watch c name o started) s ∨
    ∃ t, (now (w.answer (.sleep o.interval) s).2).nanos < started.nanos + d.nanos ∧
      (now (w.answer (.sleep o.interval) s).2).nanos ≤ (now t).nanos ∧
      ∀ n, EndsAfter w c name n (watch c name o started) t →
        EndsAfter w c name (n + 1) (watch c name o started) s := by
  simp only [endsAfter_succ, watch_succ, run, transcript]
  generalize (w.answer (.sleep o.interval) s).2 = slept
  have hlooked := hw.mono (.find name c) slept
  generalize w.answer (.find name c) slept = look at hlooked ⊢
  obtain ⟨a, looked⟩ := look
  cases a with
  | error f => exact .inl fun _ _ => ⟨by rintro ⟨⟩, rfl⟩
  | ok info =>
    rcases verdict_cases name info with ⟨e, -, -, hv⟩ | ⟨e, p, -, -, -, hv⟩ | ⟨-, hv⟩
    · simp only [hv]
      exact .inl fun _ _ => ⟨by rintro ⟨⟩, rfl⟩
    · simp only [hv]
      exact .inl fun _ _ => ⟨by rintro ⟨⟩, rfl⟩
    · -- Nothing but the deadline can end the wait here.
      simp only [hv, hd, run, transcript, hw.shows]
      have hread := hw.mono .clock looked
      cases hover : isOver started (now looked) d with
      | true => exact .inl fun _ _ => ⟨by rintro ⟨⟩, rfl⟩
      | false =>
        have hopen : (now looked).nanos < started.nanos + d.nanos := by
          simpa [isOver] using hover
        refine .inr ⟨_, hlooked.trans_lt hopen, hlooked.trans hread, fun n hn looks hlooks => ?_⟩
        obtain ⟨hend, hcalls⟩ := hn looks hlooks
        exact ⟨hend, congrArg (_ :: ·) hcalls⟩

/-- A watch whose deadline is over after some sleeps has ended by then. -/
theorem watch_endsAfter (hw : w.IsTimed now) (hpass : w.Passes now o.interval i)
    (hd : o.deadline = some d) (c : EngineConfig) (name : String) (s : σ)
    (hover : started.nanos + d.nanos ≤ (now s).nanos + i * (m + 1)) :
    ∃ n, 1 ≤ n ∧ n ≤ m + 1 ∧ EndsAfter w c name n (watch c name o started) s := by
  induction m generalizing s with
  | zero =>
    have hslept := hpass s
    rcases watch_timed_round hw hd c name started s with hend | ⟨t, hopen, -⟩
    · exact ⟨1, Nat.le_refl _, Nat.le_refl _, hend⟩
    · omega
  | succ m ih =>
    have hslept := hpass s
    rcases watch_timed_round hw hd c name started s with hend | ⟨t, -, hlater, hgo⟩
    · exact ⟨1, Nat.le_refl _, Nat.le_add_left _ _, hend⟩
    · have hrest : started.nanos + d.nanos ≤ (now t).nanos + i * (m + 1) := by
        rw [Nat.mul_succ i (m + 1)] at hover
        omega
      obtain ⟨n, -, hn, hend⟩ := ih t hrest
      exact ⟨n + 1, Nat.le_add_left _ _, Nat.succ_le_succ hn, hgo n hend⟩

/-- With a deadline, and sleeps that take `i` at least, a wait ends with the look that follows the
first sleep to reach the deadline, if not before. -/
theorem wait_endsAfter (hw : w.IsTimed now) (hpass : w.Passes now o.interval i) (hi : 0 < i)
    (hd : o.deadline = some d) (c : EngineConfig) (name : String) (s : σ) :
    ∃ n, 1 ≤ n ∧ n ≤ max 1 (d.nanos ⌈/⌉ i) ∧
      EndsAfter w c name n (fun looks => wait looks c name o) s := by
  obtain ⟨m, hm⟩ : ∃ m, max 1 (d.nanos ⌈/⌉ i) = m + 1 :=
    Nat.exists_eq_add_of_le' (Nat.le_max_left _ _)
  have hover : (now s).nanos + d.nanos ≤ (now (w.answer .clock s).2).nanos + i * (m + 1) := by
    refine Nat.add_le_add (hw.mono .clock s) ?_
    calc d.nanos ≤ i * (d.nanos ⌈/⌉ i) := le_smul_ceilDiv hi
      _ ≤ i * (m + 1) := Nat.mul_le_mul_left i (hm ▸ Nat.le_max_right _ _)
  obtain ⟨n, hpos, hn, hend⟩ := watch_endsAfter hw hpass hd c name _ hover
  refine ⟨n, hpos, hm ▸ hn, ?_⟩
  rw [← hw.shows] at hend
  exact hend

end Lifecycle

end RecipeFlow
