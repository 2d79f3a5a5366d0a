import RecipeFlow.Proofs.Engine.Executions

/-! Histories of a simulated engine that may be scripted: what each call is to be answered, told
from the calls before it and from nothing else. -/
namespace RecipeFlow

/-- A graph has the name that an expectation asks for. -/
def Expectation.Fits (e : Expectation) (g : Graph) : Prop :=
  e.stem.toList <+: g.generateName.toList

/-- A submission is answered as an expectation says. -/
def Expectation.Answers (e : Expectation) : Except Fault (Option String) → Prop
  | .ok (some _) => e.reception = .named
  | .ok none => e.reception = .unnamed
  | .error f => e.reception = .rejected ∧
      f = .submission Code.submissionFailed "mock engine rejected the workflow" none

namespace SimulatedEngine

/-- What is done to an engine. -/
inductive Act where
  | expect (e : Expectation)
  | submit (g : Graph)
  | find (name : String)
  | delete (name : String)
  | seed (id : String)
  /-- Deletions fail from now on, or no longer. -/
  | failDeletes (fail : Bool)

/-- What was done, with the engine's answer. -/
inductive Event where
  | expected (e : Expectation)
  | submitted (g : Graph) (answer : Except Fault (Option String))
  | found (name : String) (answer : Except Fault (Option Execution))
  | deleted (name : String) (answer : Except Fault Unit)
  | seeded (id : String)
  | switched (fail : Bool)
  deriving DecidableEq

namespace Event

/-- The name that a submission is told. -/
def started? : Event → Option String
  | submitted _ (.ok (some name)) => some name
  | _ => none

/-- The name that a deletion drops, unless it fails. -/
def dropped? : Event → Option String
  | deleted name (.ok ()) => some name
  | _ => none

/-- The name that is looked for. -/
def sought? : Event → Option String
  | found name _ => some name
  | _ => none

/-- An event is about the execution of a name. -/
def Concerns (name : String) (x : Event) : Prop :=
  x.started? = some name ∨ x.dropped? = some name ∨ x.sought? = some name

variable {g : Graph} {name k : String}

theorem concerns_started : Concerns k (submitted g (.ok (some name))) ↔ name = k := by
  simp [Concerns, started?, dropped?, sought?]

theorem concerns_found {answer : Except Fault (Option Execution)} :
    Concerns k (found name answer) ↔ name = k := by
  simp [Concerns, started?, dropped?, sought?]

theorem concerns_dropped : Concerns k (deleted name (.ok ())) ↔ name = k := by
  simp [Concerns, started?, dropped?, sought?]

end Event

/-- Does one act, and notes it with the answer. -/
def perform : Act → SimulatedEngine → Event × SimulatedEngine
  | .expect e, s => (.expected e, s.expect e)
  | .submit g, s => (.submitted g (s.submit g).1, (s.submit g).2)
  | .find name, s => (.found name (s.find name).1, (s.find name).2)
  | .delete name, s => (.deleted name (s.delete name).1, (s.delete name).2)
  | .seed id, s => (.seeded id, s.seed id)
  | .failDeletes fail, s => (.switched fail, { s with failDeletes := fail })

/-- The events of acts that are done one after another. -/
def history : List Act → SimulatedEngine → List Event
  | [], _ => []
  | a :: as, s => (perform a s).1 :: history as (perform a s).2

/-- An event with what it does not show: the expectation that a graph meets, beside the place of
that in the history, and what the execution outputs once it has ended. -/
structure Entry where
  event : Event
  met : Option (Nat × Expectation) := none
  outputs : Table (Table String) := []

namespace Entry

/-- The place of the expectation that is met. -/
def place? (x : Entry) : Option Nat :=
  x.met.map Prod.fst

/-- What a graph meets: an expectation, or to succeed at once. -/
def plan (x : Entry) : Expectation :=
  (x.met.map Prod.snd).getD ⟨"", .named, [.succeeded]⟩

/-- What a look at an execution shows after a number of looks. -/
def snapshot (x : Entry) (name : String) (looks : Nat) : Execution :=
  let phase := x.plan.phases[looks]?.getD x.plan.last
  ⟨name, some phase, if phase.isTerminal then x.outputs else []⟩

/-- The execution as an engine keeps it after a number of looks. -/
def execution (x : Entry) (looks : Nat) : SimulatedExecution :=
  ⟨x.plan.phases.drop looks, x.plan.last, x.outputs⟩

end Entry

/-- An entry has started an execution under a name that was not dropped since, and that was looked
for a number of times. -/
def IsAlive (name : String) (past : List Entry) (x : Entry) (looks : Nat) : Prop :=
  ∃ before after, past = before ++ x :: after ∧ x.event.started? = some name ∧
    (∀ y ∈ after, y.event.dropped? ≠ some name) ∧
    looks = after.countP fun y => y.event.sought? = some name

/-- An expectation was registered at a place, and no graph has met it. -/
structure Awaits (past : List Entry) (p : Nat × Expectation) : Prop where
  expected : (past.map Entry.event)[p.1]? = some (.expected p.2)
  unmet : ∀ x ∈ past, x.place? ≠ some p.1

/-- The first of the expectations that no graph has met and that fit a graph, if there is one. -/
def IsFirst (past : List Entry) (g : Graph) : Option (Nat × Expectation) → Prop
  | some p => Awaits past p ∧ p.2.Fits g ∧ ∀ q, Awaits past q → q.2.Fits g → p.1 ≤ q.1
  | none => ∀ q, Awaits past q → ¬ q.2.Fits g

/-- An entry says what is due after those before it. -/
def Follows (past : List Entry) (x : Entry) : Prop :=
  match x.event with
  | .submitted g answer => IsFirst past g x.met ∧ x.plan.Answers answer
  | .found name answer => x.met = none ∧
      ((∃ y n, IsAlive name past y n ∧ answer = .ok (some (y.snapshot name n))) ∨
        (∀ y n, ¬ IsAlive name past y n) ∧ answer = .ok none)
  | _ => x.met = none

/-- A history in which no execution bears on another. -/
structure IsIndependent (es : List Entry) : Prop where
  /-- No name is given twice. -/
  names : (es.filterMap (·.event.started?)).Nodup
  /-- No expectation is met twice. -/
  places : (es.filterMap Entry.place?).Nodup
  /-- Each event is as those before it say. -/
  follows : ∀ past x future, es = past ++ x :: future → Follows past x

variable {past : List Entry} {x y : Entry} {p : Nat × Expectation} {name : String} {n : Nat}
  {e : Expectation} {es : List Expectation} {g : Graph} {s u : SimulatedEngine}
  {t : Table SimulatedExecution}

/-! What one more event changes. -/

/-- What is in front of a place, where one more is put behind. -/
theorem concat_eq_append_cons {α : Type} {xs before after : List α} {a b : α}
    (h : xs ++ [a] = before ++ b :: after) :
    after = [] ∧ xs = before ∧ a = b ∨ ∃ rest, after = rest ++ [a] ∧ xs = before ++ b :: rest := by
  rcases List.eq_nil_or_concat after with rfl | ⟨rest, c, rfl⟩
  · obtain ⟨hxs, hab⟩ := List.append_inj' h rfl
    exact .inl ⟨rfl, hxs, List.singleton_inj.1 hab⟩
  · rw [List.concat_eq_append, ← List.cons_append, ← List.append_assoc] at h
    obtain ⟨hxs, hac⟩ := List.append_inj' h rfl
    rw [List.singleton_inj.1 hac]
    exact .inr ⟨rest, List.concat_eq_append, hxs⟩

theorem awaits_concat : Awaits (past ++ [x]) p ↔
    (Awaits past p ∨ p.1 = past.length ∧ x.event = .expected p.2 ∧
      ∀ y ∈ past, y.place? ≠ some p.1) ∧ x.place? ≠ some p.1 := by
  have hunmet : (∀ y ∈ past ++ [x], y.place? ≠ some p.1) ↔
      (∀ y ∈ past, y.place? ≠ some p.1) ∧ x.place? ≠ some p.1 := by
    rw [List.forall_mem_append, List.forall_mem_singleton]
  have hexpected : ((past ++ [x]).map Entry.event)[p.1]? = some (.expected p.2) ↔
      (past.map Entry.event)[p.1]? = some (.expected p.2) ∨
        p.1 = past.length ∧ x.event = .expected p.2 := by
    rw [List.map_append, List.map_singleton, List.getElem?_append, List.length_map]
    split
    · next hlt => exact ⟨.inl, fun h => h.resolve_right fun h => hlt.ne h.1⟩
    · next hge =>
      have hnone : (past.map Entry.event)[p.1]? = none :=
        List.getElem?_eq_none (by rw [List.length_map]; omega)
      rw [hnone, List.getElem?_singleton]
      split
      · next hzero =>
        have hlength : p.1 = past.length := by omega
        simp [hlength]
      · next hzero =>
        have hlength : p.1 ≠ past.length := by omega
        simp [hlength]
  constructor
  · rintro ⟨he, hu⟩
    obtain ⟨hu, hx⟩ := hunmet.1 hu
    exact ⟨(hexpected.1 he).imp (⟨·, hu⟩) fun h => ⟨h.1, h.2, hu⟩, hx⟩
  · rintro ⟨h | ⟨hlength, hevent, hu⟩, hx⟩
    · exact ⟨hexpected.2 (.inl h.expected), hunmet.2 ⟨h.unmet, hx⟩⟩
    · exact ⟨hexpected.2 (.inr ⟨hlength, hevent⟩), hunmet.2 ⟨hu, hx⟩⟩

theorem awaits_concat_of_ne (h : ∀ e, x.event ≠ .expected e) :
    Awaits (past ++ [x]) p ↔ Awaits past p ∧ x.place? ≠ some p.1 := by
  rw [awaits_concat, or_iff_left fun hnew => h _ hnew.2.1]

theorem Awaits.lt_length (h : Awaits past p) : p.1 < past.length := by
  have hlt := (List.getElem?_eq_some_iff.1 h.expected).1
  rwa [List.length_map] at hlt

theorem isAlive_concat : IsAlive name (past ++ [y]) x n ↔
    y = x ∧ x.event.started? = some name ∧ n = 0 ∨
    y.event.dropped? ≠ some name ∧
      ∃ m, IsAlive name past x m ∧ n = m + if y.event.sought? = some name then 1 else 0 := by
  constructor
  · rintro ⟨before, after, hsplit, hstart, hkept, rfl⟩
    rcases concat_eq_append_cons hsplit with ⟨rfl, -, rfl⟩ | ⟨rest, rfl, rfl⟩
    · exact .inl ⟨rfl, hstart, rfl⟩
    · rw [List.forall_mem_append, List.forall_mem_singleton] at hkept
      refine .inr ⟨hkept.2, _, ⟨before, rest, rfl, hstart, hkept.1, rfl⟩, ?_⟩
      rw [List.countP_append, List.countP_singleton]
      simp only [decide_eq_true_eq]
  · rintro (⟨rfl, hstart, rfl⟩ | ⟨hdrop, m, ⟨before, after, rfl, hstart, hkept, rfl⟩, rfl⟩)
    · exact ⟨past, [], rfl, hstart, by simp, rfl⟩
    · refine ⟨before, after ++ [y], by simp, hstart, ?_, ?_⟩
      · rw [List.forall_mem_append, List.forall_mem_singleton]
        exact ⟨hkept, hdrop⟩
      · rw [List.countP_append, List.countP_singleton]
        simp only [decide_eq_true_eq]

theorem isAlive_concat_of_not_concerns (h : ¬ y.event.Concerns name) :
    IsAlive name (past ++ [y]) x n ↔ IsAlive name past x n := by
  obtain ⟨hstart, h⟩ := not_or.1 h
  obtain ⟨hdrop, hseek⟩ := not_or.1 h
  rw [isAlive_concat, if_neg hseek, and_iff_right hdrop]
  constructor
  · rintro (⟨rfl, h, -⟩ | ⟨m, h, rfl⟩)
    · exact absurd h hstart
    · exact h
  · exact fun h => .inr ⟨n, h, rfl⟩

/-- A look keeps alive what it is for, and is counted. -/
theorem isAlive_concat_found {answer : Except Fault (Option Execution)}
    (hy : y.event = .found name answer) :
    IsAlive name (past ++ [y]) x n ↔ ∃ m, IsAlive name past x m ∧ n = m + 1 := by
  have hstart : y.event.started? = none := by rw [hy]; rfl
  have hdrop : y.event.dropped? ≠ some name := by rw [hy]; nofun
  have hseek : y.event.sought? = some name := by rw [hy]; rfl
  rw [isAlive_concat, if_pos hseek, and_iff_right hdrop]
  refine or_iff_right ?_
  rintro ⟨rfl, h, -⟩
  cases hstart.symm.trans h

theorem not_isAlive_concat_deleted (hy : y.event = .deleted name (.ok ())) :
    ¬ IsAlive name (past ++ [y]) x n := by
  intro h
  rcases isAlive_concat.1 h with ⟨rfl, hstart, -⟩ | ⟨hdrop, -⟩
  · rw [hy] at hstart
    cases hstart
  · rw [hy] at hdrop
    exact hdrop rfl

theorem IsAlive.mem (h : IsAlive name past x n) : x ∈ past ∧ x.event.started? = some name := by
  obtain ⟨before, after, rfl, hstart, -, -⟩ := h
  exact ⟨by simp, hstart⟩

theorem nodup_filterMap_concat {α β : Type} {f : α → Option β} {xs : List α} {a : α}
    (h : (xs.filterMap f).Nodup) (hfresh : ∀ b, f a = some b → ∀ x ∈ xs, f x ≠ some b) :
    ((xs ++ [a]).filterMap f).Nodup := by
  rw [List.filterMap_append, List.nodup_append]
  refine ⟨h, ?_, ?_⟩
  · cases hf : f a with
    | none => simp [hf]
    | some b => simp [hf]
  · intro b hb c hc
    obtain ⟨x, hx, hxb⟩ := List.mem_filterMap.1 hb
    obtain ⟨d, hd, hac⟩ := List.mem_filterMap.1 hc
    rw [List.mem_singleton.1 hd] at hac
    rintro rfl
    exact hfresh b hac x hx hxb

theorem IsIndependent.concat (h : IsIndependent past) (hx : Follows past x)
    (hname : ∀ name, x.event.started? = some name → ∀ y ∈ past, y.event.started? ≠ some name)
    (hplace : ∀ j, x.place? = some j → ∀ y ∈ past, y.place? ≠ some j) :
    IsIndependent (past ++ [x]) where
  names := nodup_filterMap_concat h.names hname
  places := nodup_filterMap_concat h.places hplace
  follows := by
    intro before z after hsplit
    rcases concat_eq_append_cons hsplit with ⟨-, rfl, rfl⟩ | ⟨rest, -, hpast⟩
    · exact hx
    · exact h.follows _ _ _ hpast

end SimulatedEngine

end RecipeFlow
