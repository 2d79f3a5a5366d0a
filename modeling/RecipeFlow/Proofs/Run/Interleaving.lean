import RecipeFlow.Proofs.Run.Transcript

/-! Two programs in one world. Their queries come in any order, and each of them is answered before
the next one is made. -/
namespace RecipeFlow

open Dialogue

variable {α β σ : Type} {w : World σ} {s : σ} {x : Exchange} {es es' : List Exchange}

namespace World

/-- The world gives these answers, one after another. -/
def Answers (w : World σ) : σ → List Exchange → Prop
  | _, [] => True
  | s, x :: es => (w.answer x.query s).1 = x.answer ∧ w.Answers (w.answer x.query s).2 es

theorem answers_append :
    w.Answers s (es ++ es') ↔ w.Answers s es ∧ w.Answers (w.after s es) es' := by
  induction es generalizing s with
  | nil => exact iff_of_eq (true_and _).symm
  | cons x es ih => simp only [List.cons_append, Answers, ih, after_cons, and_assoc]

theorem Answers.of_mem (h : w.Answers s es) (hx : x ∈ es) :
    ∃ t, (w.answer x.query t).1 = x.answer := by
  obtain ⟨pre, post, rfl⟩ := List.append_of_mem hx
  exact ⟨_, (answers_append.1 h).2.1⟩

theorem answers_transcript (w : World σ) (d : Dialogue α) (s : σ) :
    w.Answers s (d.transcript w s) := by
  induction d generalizing s with
  | done | failed | stalled => trivial
  | ask q next ih => exact ⟨rfl, ih _ _⟩

end World

/-- An exchange of the first or the second of two programs. -/
abbrev Turn := Exchange ⊕ Exchange

namespace Turn

variable {ts : List Turn}

/-- The exchanges of both programs. -/
def both (ts : List Turn) : List Exchange :=
  ts.map (Sum.elim id id)

def lefts (ts : List Turn) : List Exchange :=
  ts.filterMap Sum.getLeft?

def rights (ts : List Turn) : List Exchange :=
  ts.filterMap Sum.getRight?

/-- The same turns with the second program as the first one. -/
def swap (ts : List Turn) : List Turn :=
  ts.map Sum.swap

@[simp] theorem both_append {ts' : List Turn} : both (ts ++ ts') = both ts ++ both ts' :=
  List.map_append

@[simp] theorem lefts_append {ts' : List Turn} : lefts (ts ++ ts') = lefts ts ++ lefts ts' :=
  List.filterMap_append

@[simp] theorem rights_append {ts' : List Turn} : rights (ts ++ ts') = rights ts ++ rights ts' :=
  List.filterMap_append

@[simp] theorem both_inl : both (.inl x :: ts) = x :: both ts := rfl
@[simp] theorem both_inr : both (.inr x :: ts) = x :: both ts := rfl
@[simp] theorem lefts_inl : lefts (.inl x :: ts) = x :: lefts ts := rfl
@[simp] theorem lefts_inr : lefts (.inr x :: ts) = lefts ts := rfl
@[simp] theorem rights_inl : rights (.inl x :: ts) = rights ts := rfl
@[simp] theorem rights_inr : rights (.inr x :: ts) = x :: rights ts := rfl

theorem lefts_map_inl (es : List Exchange) : lefts (es.map .inl) = es := by
  induction es with
  | nil => rfl
  | cons x es ih => exact congrArg (x :: ·) ih

theorem rights_map_inl (es : List Exchange) : rights (es.map .inl) = [] := by
  induction es with
  | nil => rfl
  | cons x es ih => exact ih

theorem both_map_inl (es : List Exchange) : both (es.map .inl) = es := by
  induction es with
  | nil => rfl
  | cons x es ih => exact congrArg (x :: ·) ih

@[simp] theorem lefts_swap : lefts (swap ts) = rights ts := by
  induction ts with
  | nil => rfl
  | cons t ts ih =>
    cases t with
    | inl x => exact ih
    | inr x => exact congrArg (x :: ·) ih

@[simp] theorem swap_swap : swap (swap ts) = ts := by
  simp [swap]

@[simp] theorem rights_swap : rights (swap ts) = lefts ts := by
  rw [← lefts_swap, swap_swap]

@[simp] theorem both_swap : both (swap ts) = both ts := by
  induction ts with
  | nil => rfl
  | cons t ts ih => cases t <;> exact congrArg (_ :: ·) ih

theorem mem_lefts : x ∈ lefts ts ↔ .inl x ∈ ts := by
  simp [lefts]

theorem mem_rights : x ∈ rights ts ↔ .inr x ∈ ts := by
  simp [rights]

/-- Where the first program has an exchange, both have one. -/
theorem lefts_eq_append_cons (h : lefts ts = es ++ x :: es') :
    ∃ pre post, ts = pre ++ .inl x :: post ∧ lefts pre = es ∧ lefts post = es' := by
  obtain ⟨pre, rest, rfl, hpre, hrest⟩ := List.filterMap_eq_append_iff.1 h
  obtain ⟨idle, t, post, rfl, hidle, ht, hpost⟩ := List.filterMap_eq_cons_iff.1 hrest
  obtain ⟨y, rfl⟩ | ⟨y, rfl⟩ : (∃ y, t = .inl y) ∨ ∃ y, t = .inr y := by cases t <;> simp
  · cases ht
    refine ⟨pre ++ idle, post, by simp, ?_, hpost⟩
    rw [lefts_append, show lefts idle = [] from List.filterMap_eq_nil_iff.2 hidle, List.append_nil]
    exact hpre
  · cases ht

theorem mem_both : x ∈ both ts ↔ x ∈ lefts ts ∨ x ∈ rights ts := by
  simp [both, mem_lefts, mem_rights, Sum.exists]

end Turn

open Turn

/-- Two programs end like this after these turns, in a world that gives the answers. -/
structure Interleaves (w : World σ) (d : Dialogue α) (e : Dialogue β) (s : σ) (ts : List Turn)
    (out : Outcome α) (out' : Outcome β) : Prop where
  left : Runs d (lefts ts) out
  right : Runs e (rights ts) out'
  answers : w.Answers s (both ts)

namespace Interleaves

variable {d : Dialogue α} {e : Dialogue β} {ts : List Turn} {out : Outcome α} {out' : Outcome β}

theorem swap (h : Interleaves w d e s ts out out') :
    Interleaves w e d s (Turn.swap ts) out' out where
  left := by
    rw [lefts_swap]
    exact h.right
  right := by
    rw [rights_swap]
    exact h.left
  answers := by
    rw [both_swap]
    exact h.answers

theorem ask_left {q : Query} {next : q.Answer → Dialogue α}
    (h : Interleaves w (next (w.answer q s).1) e (w.answer q s).2 ts out out') :
    Interleaves w (.ask q next) e s (.inl ⟨q, (w.answer q s).1⟩ :: ts) out out' :=
  ⟨.ask q _ h.left, h.right, rfl, h.answers⟩

theorem ask_right {q : Query} {next : q.Answer → Dialogue β}
    (h : Interleaves w d (next (w.answer q s).1) (w.answer q s).2 ts out out') :
    Interleaves w d (.ask q next) s (.inr ⟨q, (w.answer q s).1⟩ :: ts) out out' :=
  ⟨h.left, .ask q _ h.right, rfl, h.answers⟩

/-- One program after the other is one of the orders. -/
theorem sequential (w : World σ) (d : Dialogue α) (e : Dialogue β) (s : σ) :
    Interleaves w d e s
      ((d.transcript w s).map .inl ++ (e.transcript w (d.run w s).2).map .inr)
      (d.run w s).1 (e.run w (d.run w s).2).1 := by
  have hright : ∀ es : List Exchange, es.map Sum.inr = Turn.swap (es.map .inl) := by
    simp [Turn.swap]
  refine ⟨?_, ?_, ?_⟩
  · rw [lefts_append, lefts_map_inl, hright, lefts_swap, rights_map_inl, List.append_nil]
    exact runs_transcript w d s
  · rw [rights_append, rights_map_inl, hright, rights_swap, lefts_map_inl, List.nil_append]
    exact runs_transcript w e _
  · rw [both_append, both_map_inl, hright, both_swap, both_map_inl, World.answers_append,
      ← run_state]
    exact ⟨World.answers_transcript w d s, World.answers_transcript w e _⟩

end Interleaves

/-- Two programs of which the first one (`true`) or the second one goes on, in a given order. A
program at its end misses its turns. Behind the order the first one goes on alone, then the
second one. -/
def race (w : World σ) :
    List Bool → Dialogue α → Dialogue β → σ → List Turn × Outcome α × Outcome β
  | true :: order, .ask q next, e, s =>
    let (ts, ends) := race w order (next (w.answer q s).1) e (w.answer q s).2
    (.inl ⟨q, (w.answer q s).1⟩ :: ts, ends)
  | false :: order, d, .ask q next, s =>
    let (ts, ends) := race w order d (next (w.answer q s).1) (w.answer q s).2
    (.inr ⟨q, (w.answer q s).1⟩ :: ts, ends)
  | _ :: order, d, e, s => race w order d e s
  | [], d, e, s =>
    let (out, t) := d.run w s
    ((d.transcript w s).map .inl ++ (e.transcript w t).map .inr, out, (e.run w t).1)

/-- Every order leads to an end. -/
theorem race_interleaves (w : World σ) (order : List Bool) (d : Dialogue α) (e : Dialogue β)
    (s : σ) :
    Interleaves w d e s (race w order d e s).1 (race w order d e s).2.1
      (race w order d e s).2.2 := by
  fun_induction race w order d e s with
  | case1 order q next e s ts ends hrace ih =>
    rw [hrace] at ih
    exact ih.ask_left
  | case2 order d q next s ts ends hrace ih =>
    rw [hrace] at ih
    exact ih.ask_right
  | case3 _ order d e s _ _ ih => exact ih
  | case4 d e s out t hrun =>
    have h := Interleaves.sequential w d e s
    rw [hrun] at h
    exact h

end RecipeFlow
