import RecipeFlow.Run.Dialogue

/-! Transcripts: what a program asked and was answered, whatever the world that it ran in. -/
namespace RecipeFlow

/-- A query with the answer that it got. -/
structure Exchange where
  query : Query
  answer : query.Answer

/-- The graph that a query submits. -/
def Query.submitted? : Query → Option Graph
  | submit g _ => some g
  | _ => none

/-- The execution that a query drops. -/
def Query.dropped? : Query → Option String
  | delete name _ => some name
  | _ => none

/-- Whether a query goes to the engine. -/
def Query.IsEngineCall : Query → Prop
  | submit .. | find .. | delete .. => True
  | list _ | sleep _ | clock => False

instance : DecidablePred Query.IsEngineCall
  | .submit .. | .find .. | .delete .. => isTrue trivial
  | .list _ | .sleep _ | .clock => isFalse id

/-- The calls of the engine, in order. -/
def engineCalls (es : List Exchange) : List Query :=
  (es.map Exchange.query).filter Query.IsEngineCall

/-- The graphs that were submitted, in order. -/
def submissions (es : List Exchange) : List Graph :=
  es.filterMap fun x => x.query.submitted?

/-- The state behind some exchanges with a world. -/
def World.after {σ : Type} (w : World σ) (s : σ) (es : List Exchange) : σ :=
  es.foldl (fun s x => (w.answer x.query s).2) s

namespace World

variable {σ : Type} {w : World σ} {s : σ}

@[simp] theorem after_nil : w.after s [] = s := rfl

@[simp] theorem after_cons {x : Exchange} {es : List Exchange} :
    w.after s (x :: es) = w.after (w.answer x.query s).2 es := rfl

@[simp] theorem after_append {es es' : List Exchange} :
    w.after s (es ++ es') = w.after (w.after s es) es' :=
  List.foldl_append

end World

namespace Dialogue

variable {α β σ : Type} {d : Dialogue α} {k : α → Dialogue β} {f : Fault}
  {es : List Exchange} {out : Outcome α} {P : Query → Prop}

/-- Some answers lead a program through these exchanges to this end. -/
inductive Runs : Dialogue α → List Exchange → Outcome α → Prop
  | done (a : α) : Runs (.done a) [] (.done a)
  | failed (f : Fault) : Runs (.failed f) [] (.failed f)
  | stalled : Runs .stalled [] .stalled
  | ask (q : Query) {next : q.Answer → Dialogue α} (a : q.Answer) {es : List Exchange}
      {out : Outcome α} (h : Runs (next a) es out) : Runs (.ask q next) (⟨q, a⟩ :: es) out

/-- The exchanges of a program with a world. -/
def transcript (w : World σ) : Dialogue α → σ → List Exchange
  | done _, _ | failed _, _ | stalled, _ => []
  | ask q next, s =>
    ⟨q, (w.answer q s).1⟩ :: (next (w.answer q s).1).transcript w (w.answer q s).2

theorem runs_transcript (w : World σ) (d : Dialogue α) (s : σ) :
    Runs d (d.transcript w s) (d.run w s).1 := by
  induction d generalizing s with
  | done a => exact .done a
  | failed f => exact .failed f
  | stalled => exact .stalled
  | ask q next ih => exact .ask q _ (ih _ _)

/-- The state that a run ends in follows from what was asked. -/
theorem run_state (w : World σ) (d : Dialogue α) (s : σ) :
    (d.run w s).2 = w.after s (d.transcript w s) := by
  induction d generalizing s with
  | done | failed | stalled => rfl
  | ask q next ih => exact ih _ _

/-- A sequence goes on in the state that its first part ends in, if that has a result. -/
theorem run_bind (w : World σ) (d : Dialogue α) (k : α → Dialogue β) (s : σ) :
    (d >>= k).run w s = match (d.run w s).1 with
      | .done a => (k a).run w (d.run w s).2
      | .failed f => (.failed f, (d.run w s).2)
      | .stalled => (.stalled, (d.run w s).2) := by
  induction d generalizing s with
  | done | failed | stalled => rfl
  | ask q next ih => exact ih _ _

theorem transcript_bind (w : World σ) (d : Dialogue α) (k : α → Dialogue β) (s : σ) :
    (d >>= k).transcript w s = d.transcript w s ++ match (d.run w s).1 with
      | .done a => (k a).transcript w (d.run w s).2
      | .failed _ | .stalled => [] := by
  induction d generalizing s with
  | done | failed | stalled => rfl
  | ask q next ih => exact congrArg (_ :: ·) (ih _ _)

@[simp] theorem runs_done {a : α} : Runs (.done a) es out ↔ es = [] ∧ out = .done a := by
  constructor
  · intro h
    cases h
    exact ⟨rfl, rfl⟩
  · rintro ⟨rfl, rfl⟩
    exact .done a

@[simp] theorem runs_pure {a : α} :
    Runs (pure a : Dialogue α) es out ↔ es = [] ∧ out = .done a :=
  runs_done

@[simp] theorem runs_failed :
    Runs (.failed f : Dialogue α) es out ↔ es = [] ∧ out = .failed f := by
  constructor
  · intro h
    cases h
    exact ⟨rfl, rfl⟩
  · rintro ⟨rfl, rfl⟩
    exact .failed f

@[simp] theorem runs_stalled :
    Runs (.stalled : Dialogue α) es out ↔ es = [] ∧ out = .stalled := by
  constructor
  · intro h
    cases h
    exact ⟨rfl, rfl⟩
  · rintro ⟨rfl, rfl⟩
    exact .stalled

theorem runs_ask {q : Query} {next : q.Answer → Dialogue α} :
    Runs (.ask q next) es out ↔ ∃ a rest, es = ⟨q, a⟩ :: rest ∧ Runs (next a) rest out := by
  constructor
  · intro h
    cases h with
    | ask _ a h => exact ⟨a, _, rfl, h⟩
  · rintro ⟨a, rest, rfl, h⟩
    exact .ask q a h

@[simp] theorem runs_ofExcept {x : Except Fault α} :
    Runs (ofExcept x) es out ↔ es = [] ∧ out = match x with
      | .ok a => .done a
      | .error f => .failed f := by
  cases x <;> simp [ofExcept]

/-- A sequence ends in its first part, unless that has a result to go on with. -/
theorem runs_bind {out : Outcome β} : Runs (d >>= k) es out ↔
    (∃ a pre post, es = pre ++ post ∧ Runs d pre (.done a) ∧ Runs (k a) post out) ∨
    (∃ f, out = .failed f ∧ Runs d es (.failed f)) ∨ (out = .stalled ∧ Runs d es .stalled) := by
  induction d generalizing es with
  | done a =>
    simp only [show (done a >>= k) = k a from rfl, runs_done]
    grind
  | failed f =>
    simp only [show (failed f >>= k) = failed f from rfl, runs_failed]
    grind
  | stalled =>
    simp only [show (stalled >>= k) = stalled from rfl, runs_stalled]
    grind
  | ask q next ih =>
    simp only [show (ask q next >>= k) = ask q fun a => next a >>= k from rfl, runs_ask, ih]
    constructor
    · rintro ⟨a, rest, rfl, ⟨b, pre, post, rfl, hd, hk⟩ | ⟨f, ho, hd⟩ | ⟨ho, hd⟩⟩
      · exact .inl ⟨b, ⟨q, a⟩ :: pre, post, rfl, ⟨a, pre, rfl, hd⟩, hk⟩
      · exact .inr (.inl ⟨f, ho, a, rest, rfl, hd⟩)
      · exact .inr (.inr ⟨ho, a, rest, rfl, hd⟩)
    · rintro (⟨b, _, post, rfl, ⟨a, rest, rfl, hd⟩, hk⟩ | ⟨f, ho, a, rest, rfl, hd⟩ |
        ⟨ho, a, rest, rfl, hd⟩)
      · exact ⟨a, rest ++ post, rfl, .inl ⟨b, rest, post, rfl, hd, hk⟩⟩
      · exact ⟨a, rest, rfl, .inr (.inl ⟨f, ho, hd⟩)⟩
      · exact ⟨a, rest, rfl, .inr (.inr ⟨ho, hd⟩)⟩

theorem runs_bind_done {b : β} : Runs (d >>= k) es (.done b) ↔
    ∃ a pre post, es = pre ++ post ∧ Runs d pre (.done a) ∧ Runs (k a) post (.done b) := by
  simp [runs_bind]

/-- Changing the fault of a program changes neither what it asks nor its result. -/
theorem runs_mapFault {g : Fault → Fault} (h : Runs (d.mapFault g) es out) :
    ∃ o, Runs d es o ∧ ∀ a, out = .done a → o = .done a := by
  induction d generalizing es with
  | done a =>
    obtain ⟨rfl, rfl⟩ := runs_done.1 h
    exact ⟨_, .done a, fun _ => id⟩
  | failed f =>
    obtain ⟨rfl, rfl⟩ := runs_failed.1 h
    exact ⟨_, .failed f, by simp⟩
  | stalled =>
    obtain ⟨rfl, rfl⟩ := runs_stalled.1 h
    exact ⟨_, .stalled, by simp⟩
  | ask q next ih =>
    obtain ⟨a, rest, rfl, hr⟩ := runs_ask.1 h
    obtain ⟨o, ho, hd⟩ := ih a hr
    exact ⟨o, .ask q a ho, hd⟩

/-- All that a program asks, whatever it is answered, satisfies `P`. -/
def AsksOnly (P : Query → Prop) : Dialogue α → Prop
  | done _ | failed _ | stalled => True
  | ask q next => P q ∧ ∀ a, (next a).AsksOnly P

theorem AsksOnly.of_runs (h : d.AsksOnly P) (hr : Runs d es out) : ∀ x ∈ es, P x.query := by
  induction hr with
  | done | failed | stalled => simp
  | ask q a _ ih => exact List.forall_mem_cons.2 ⟨h.1, ih (h.2 a)⟩

theorem AsksOnly.mono {Q : Query → Prop} (hPQ : ∀ q, P q → Q q) (h : d.AsksOnly P) :
    d.AsksOnly Q := by
  induction d with
  | done | failed | stalled => trivial
  | ask q next ih => exact ⟨hPQ q h.1, fun a => ih a (h.2 a)⟩

theorem asksOnly_bind (hd : d.AsksOnly P) (hk : ∀ a, (k a).AsksOnly P) :
    (d >>= k).AsksOnly P := by
  induction d with
  | done a => exact hk a
  | failed | stalled => trivial
  | ask q next ih => exact ⟨hd.1, fun a => ih a (hd.2 a)⟩

theorem asksOnly_mapFault {g : Fault → Fault} (hd : d.AsksOnly P) : (d.mapFault g).AsksOnly P := by
  induction d with
  | done | failed | stalled => trivial
  | ask q next ih => exact ⟨hd.1, fun a => ih a (hd.2 a)⟩

theorem asksOnly_ofExcept (x : Except Fault α) : (ofExcept x).AsksOnly P := by
  cases x <;> trivial

/-- Worlds that answer alike whatever a program asks are the same to it. -/
theorem run_congr {w w' : World σ} (hw : ∀ q, P q → ∀ s, w.answer q s = w'.answer q s)
    (hd : d.AsksOnly P) (s : σ) :
    d.run w s = d.run w' s ∧ d.transcript w s = d.transcript w' s := by
  induction d generalizing s with
  | done | failed | stalled => exact ⟨rfl, rfl⟩
  | ask q next ih =>
    obtain ⟨hrun, htranscript⟩ := ih (w.answer q s).1 (hd.2 _) (w.answer q s).2
    simp only [run, transcript, ← hw q hd.1 s]
    exact ⟨hrun, congrArg (_ :: ·) htranscript⟩

/-- Whatever it is answered, a program never asks for more than it may. -/
def Halts : Dialogue α → Prop
  | done _ | failed _ => True
  | stalled => False
  | ask _ next => ∀ a, (next a).Halts

theorem Halts.of_runs (h : d.Halts) (hr : Runs d es out) : out ≠ .stalled := by
  induction hr with
  | done | failed => nofun
  | stalled => exact h.elim
  | ask q a _ ih => exact ih (h a)

theorem halts_bind (hd : d.Halts) (hk : ∀ a, (k a).Halts) : (d >>= k).Halts := by
  induction d with
  | done a => exact hk a
  | failed f => trivial
  | stalled => exact hd.elim
  | ask q next ih => exact fun a => ih a (hd a)

theorem halts_mapFault {g : Fault → Fault} (hd : d.Halts) : (d.mapFault g).Halts := by
  induction d with
  | done | failed => trivial
  | stalled => exact hd.elim
  | ask q next ih => exact fun a => ih a (hd a)

theorem halts_ofExcept (x : Except Fault α) : (ofExcept x).Halts := by
  cases x <;> trivial

end Dialogue

@[simp] theorem submissions_nil : submissions [] = [] := rfl

@[simp] theorem submissions_append (es es' : List Exchange) :
    submissions (es ++ es') = submissions es ++ submissions es' :=
  List.filterMap_append

theorem submissions_cons_some {g : Graph} {x : Exchange} {es : List Exchange}
    (h : x.query.submitted? = some g) : submissions (x :: es) = g :: submissions es :=
  List.filterMap_cons_some h

theorem submissions_cons_none {x : Exchange} {es : List Exchange}
    (h : x.query.submitted? = none) : submissions (x :: es) = submissions es :=
  List.filterMap_cons_none h

theorem mem_submissions {g : Graph} {es : List Exchange} :
    g ∈ submissions es ↔ ∃ x ∈ es, x.query.submitted? = some g :=
  List.mem_filterMap

theorem submissions_eq_nil {es : List Exchange} (h : ∀ x ∈ es, x.query.submitted? = none) :
    submissions es = [] :=
  List.filterMap_eq_nil_iff.2 h

end RecipeFlow
