import RecipeFlow.Proofs.Engine.History

/-! A simulated engine answers each call as its history says, so no execution bears on what is seen
of another. -/
namespace RecipeFlow.SimulatedEngine

variable {past : List Entry} {x : Entry} {name : String} {es : List Expectation} {g : Graph}
  {s u : SimulatedEngine} {t t' : Table SimulatedExecution}

/-- Expectations that await a graph, in the order in which they were registered. -/
def IsStock (past : List Entry) (es : List Expectation) : Prop :=
  ∃ ps : List (Nat × Expectation), ps.map Prod.snd = es ∧ ps.Pairwise (fun p q => p.1 < q.1) ∧
    ∀ p, p ∈ ps ↔ Awaits past p

theorem IsStock.idle (h : IsStock past es) (hplace : x.place? = none)
    (hevent : ∀ e, x.event ≠ .expected e) : IsStock (past ++ [x]) es := by
  obtain ⟨ps, hps, hsorted, hmem⟩ := h
  refine ⟨ps, hps, hsorted, fun p => ?_⟩
  rw [hmem, awaits_concat_of_ne hevent, hplace]
  exact (and_iff_left nofun).symm

theorem IsStock.expect (h : IsStock past es)
    (hplaces : ∀ y ∈ past, ∀ j, y.place? = some j → j < past.length) (e : Expectation) :
    IsStock (past ++ [{ event := .expected e }]) (es ++ [e]) := by
  obtain ⟨ps, rfl, hsorted, hmem⟩ := h
  refine ⟨ps ++ [(past.length, e)], by simp, ?_, fun p => ?_⟩
  · rw [List.pairwise_append]
    refine ⟨hsorted, List.pairwise_singleton _ _, ?_⟩
    intro p hp q hq
    rw [List.mem_singleton.1 hq]
    exact ((hmem p).1 hp).lt_length
  · rw [List.mem_append, hmem, List.mem_singleton, awaits_concat, and_iff_left nofun]
    refine or_congr_right ⟨?_, ?_⟩
    · rintro rfl
      exact ⟨rfl, rfl, fun y hy hmet => (hplaces y hy _ hmet).ne rfl⟩
    · rintro ⟨hlength, hevent, -⟩
      exact Prod.ext hlength (Event.expected.inj hevent).symm

/-- The first expectation that a name fits is taken, if there is one. -/
theorem takeFirst_cases (g : Graph) (es : List Expectation) :
    (∃ before e after, es = before ++ e :: after ∧ e.Fits g ∧ (∀ d ∈ before, ¬ d.Fits g) ∧
      takeFirst g.generateName es = (some e, before ++ after)) ∨
    (∀ e ∈ es, ¬ e.Fits g) ∧ takeFirst g.generateName es = (none, es) := by
  induction es with
  | nil => exact .inr ⟨by simp, rfl⟩
  | cons e es ih =>
    rw [takeFirst]
    split
    · next hfits => exact .inl ⟨[], e, es, rfl, List.isPrefixOf_iff_prefix.1 hfits, by simp, rfl⟩
    · next hfits =>
      have hfits : ¬ e.Fits g := fun h => hfits (List.isPrefixOf_iff_prefix.2 h)
      rcases ih with ⟨before, d, after, rfl, hd, hbefore, htake⟩ | ⟨hall, htake⟩
      · refine .inl ⟨e :: before, d, after, rfl, hd, List.forall_mem_cons.2 ⟨hfits, hbefore⟩, ?_⟩
        simp [htake]
      · refine .inr ⟨List.forall_mem_cons.2 ⟨hfits, hall⟩, ?_⟩
        simp [htake]

/-- A graph meets the first expectation that fits it, and leaves the others. -/
theorem IsStock.submit (h : IsStock past es) (g : Graph) : ∃ m, IsFirst past g m ∧
    (takeFirst g.generateName es).1 = m.map Prod.snd ∧
    ∀ x : Entry, x.met = m → (∀ e, x.event ≠ .expected e) →
      IsStock (past ++ [x]) (takeFirst g.generateName es).2 := by
  obtain ⟨ps, hps, hsorted, hmem⟩ := h
  rcases takeFirst_cases g es with ⟨before, e, after, hes, hfits, hbefore, htake⟩ | ⟨hall, htake⟩
  · obtain ⟨ps₁, rest, rfl, rfl, hrest⟩ := List.map_eq_append_iff.1 (hps.trans hes)
    obtain ⟨p, ps₂, rfl, rfl, rfl⟩ := List.map_eq_cons_iff.1 hrest
    obtain ⟨hsorted₁, hsorted₂, hless⟩ := List.pairwise_append.1 hsorted
    have hp : Awaits past p := (hmem p).1 (by simp)
    refine ⟨some p, ⟨hp, hfits, ?_⟩, by rw [htake]; rfl, ?_⟩
    -- The places ascend, so what is taken from the list was registered before all else that fits.
    · intro q hq hqfits
      rcases List.mem_append.1 ((hmem q).2 hq) with hq | hq
      · exact absurd hqfits (hbefore _ (List.mem_map_of_mem hq))
      · rcases List.mem_cons.1 hq with rfl | hq
        · exact Nat.le_refl _
        · exact ((List.pairwise_cons.1 hsorted₂).1 q hq).le
    · intro x hmet hevent
      refine ⟨ps₁ ++ ps₂, by rw [htake, List.map_append], ?_, fun q => ?_⟩
      · exact hsorted.sublist ((List.sublist_cons_self p ps₂).append_left ps₁)
      · rw [awaits_concat_of_ne hevent, ← hmem, Entry.place?, hmet]
        have hbefore : ∀ q ∈ ps₁, q.1 ≠ p.1 := fun q hq => (hless q hq p List.mem_cons_self).ne
        have hafter : ∀ q ∈ ps₂, p.1 ≠ q.1 :=
          fun q hq => ((List.pairwise_cons.1 hsorted₂).1 q hq).ne
        grind
  · refine ⟨none, ?_, by rw [htake]; rfl, ?_⟩
    · intro q hq
      refine hall q.2 ?_
      rw [← hps]
      exact List.mem_map_of_mem ((hmem q).2 hq)
    · intro x hmet hevent
      rw [htake]
      exact IsStock.idle ⟨ps, hps, hsorted, hmem⟩ (by rw [Entry.place?, hmet]; rfl) hevent

/-- What is found under each name is the execution that is alive under it. -/
def IsLive (past : List Entry) (t : Table SimulatedExecution) : Prop :=
  ∀ name e, Table.find? name t = some e ↔ ∃ x n, IsAlive name past x n ∧ e = x.execution n

/-- Only what is found under the names that an event is about needs to be looked at. -/
theorem IsLive.concat (h : IsLive past t)
    (hother : ∀ k, ¬ x.event.Concerns k → Table.find? k t' = Table.find? k t)
    (hfound : ∀ k, x.event.Concerns k → ∀ e, Table.find? k t' = some e ↔
      ∃ y n, IsAlive k (past ++ [x]) y n ∧ e = y.execution n) : IsLive (past ++ [x]) t' := by
  intro k e
  by_cases hk : x.event.Concerns k
  · exact hfound k hk e
  · rw [hother k hk, h]
    simp only [isAlive_concat_of_not_concerns hk]

theorem IsLive.idle (h : IsLive past t) (hstart : x.event.started? = none)
    (hdrop : x.event.dropped? = none) (hseek : x.event.sought? = none) :
    IsLive (past ++ [x]) t := by
  refine h.concat (fun _ _ => rfl) ?_
  rintro k (hk | hk | hk)
  · cases hstart.symm.trans hk
  · cases hdrop.symm.trans hk
  · cases hseek.symm.trans hk

theorem IsLive.start (h : IsLive past t) (hx : x.event = .submitted g (.ok (some name)))
    (hfresh : ∀ y ∈ past, y.event.started? ≠ some name) :
    IsLive (past ++ [x]) (Table.insert name (x.execution 0) t) := by
  have hstart : x.event.started? = some name := by rw [hx]; rfl
  refine h.concat ?_ ?_
  · intro k hk
    rw [hx, Event.concerns_started] at hk
    rw [Table.find?_insert, if_neg (Ne.symm hk)]
  · intro k hk e
    rw [hx, Event.concerns_started] at hk
    subst hk
    rw [Table.find?_insert, if_pos rfl]
    constructor
    · rintro ⟨⟩
      exact ⟨x, 0, isAlive_concat.2 (.inl ⟨rfl, hstart, rfl⟩), rfl⟩
    · rintro ⟨y, n, halive, rfl⟩
      rcases isAlive_concat.1 halive with ⟨rfl, -, rfl⟩ | ⟨-, m, hold, -⟩
      · rfl
      · exact absurd hold.mem.2 (hfresh y hold.mem.1)

theorem Entry.execution_succ (x : Entry) (n : Nat) :
    { x.execution n with ahead := (x.execution n).ahead.drop 1 } = x.execution (n + 1) := by
  simp [execution, List.drop_drop]

/-- A look uses up a phase of the execution that is looked for. -/
theorem IsLive.look (h : IsLive past t) {answer : Except Fault (Option Execution)}
    (hx : x.event = .found name answer) : IsLive (past ++ [x])
      (match Table.find? name t with
        | none => t
        | some e => Table.insert name { e with ahead := e.ahead.drop 1 } t) := by
  refine h.concat ?_ ?_
  · intro k hk
    rw [hx, Event.concerns_found] at hk
    split
    · rfl
    · rw [Table.find?_insert, if_neg (Ne.symm hk)]
  · intro k hk e
    rw [hx, Event.concerns_found] at hk
    subst hk
    simp only [isAlive_concat_found hx]
    cases hfound : Table.find? name t with
    | none =>
      refine iff_of_false (by rw [hfound]; nofun) ?_
      rintro ⟨y, n, ⟨m, hm, -⟩, rfl⟩
      cases hfound.symm.trans ((h name _).2 ⟨y, m, hm, rfl⟩)
    | some d =>
      obtain ⟨y, m, hy, rfl⟩ := (h name d).1 hfound
      dsimp only
      rw [Table.find?_insert, if_pos rfl, Entry.execution_succ]
      constructor
      · rintro ⟨⟩
        exact ⟨y, m + 1, ⟨m, hy, rfl⟩, rfl⟩
      · rintro ⟨z, n, ⟨l, hl, rfl⟩, rfl⟩
        have hsame := Option.some.inj (hfound.symm.trans ((h name _).2 ⟨z, l, hl, rfl⟩))
        rw [← Entry.execution_succ, hsame, Entry.execution_succ]

theorem IsLive.drop (h : IsLive past t) (hx : x.event = .deleted name (.ok ())) :
    IsLive (past ++ [x]) (t.filter (·.1 ≠ name)) := by
  refine h.concat ?_ ?_
  · intro k hk
    rw [hx, Event.concerns_dropped] at hk
    exact Table.find?_filter_ne (Ne.symm hk)
  · intro k hk e
    rw [hx, Event.concerns_dropped] at hk
    subst hk
    rw [Table.find?_filter_self]
    exact iff_of_false nofun fun ⟨y, n, hy, _⟩ => not_isAlive_concat_deleted hx hy

/-- A look shows the execution that is alive. -/
theorem IsLive.follows_find (h : IsLive past s.executions) (name : String) :
    Follows past { event := .found name (s.find name).1 } := by
  refine ⟨rfl, ?_⟩
  rw [find]
  cases hfound : Table.find? name s.executions with
  | none =>
    refine .inr ⟨?_, rfl⟩
    intro y n hy
    cases hfound.symm.trans ((h name _).2 ⟨y, n, hy, rfl⟩)
  | some e =>
    obtain ⟨y, n, hy, rfl⟩ := (h name e).1 hfound
    refine .inl ⟨y, n, hy, ?_⟩
    simp [Entry.snapshot, Entry.execution, List.head?_drop]

theorem plan_answers (g : Graph) (s : SimulatedEngine) : (plan g s).Answers (s.submit g).1 := by
  by_cases hnamed : (plan g s).reception = .named
  · rw [(submit_of_named hnamed).1]
    exact hnamed
  · rw [(submit_of_unnamed hnamed).1]
    split
    · next h => exact h
    · next h =>
      refine ⟨?_, rfl⟩
      cases hr : (plan g s).reception with
      | named => exact absurd hr hnamed
      | unnamed => exact absurd hr h
      | rejected => rfl

/-- An engine is in the state that a history leaves. -/
structure Tracks (past : List Entry) (s : SimulatedEngine) : Prop where
  independent : IsIndependent past
  placed : ∀ x ∈ past, ∀ j, x.place? = some j → j < past.length
  issued : ∀ x ∈ past, ∀ name, x.event.started? = some name → s.Issued name
  stock : IsStock past s.expectations
  live : IsLive past s.executions

theorem tracks_nil : Tracks [] {} where
  independent := ⟨List.nodup_nil, List.nodup_nil, fun before x after h => by simp at h⟩
  placed := List.forall_mem_nil _
  issued := List.forall_mem_nil _
  stock := ⟨[], rfl, List.Pairwise.nil, fun p =>
    iff_of_false List.not_mem_nil fun h => absurd h.lt_length (Nat.not_lt_zero _)⟩
  live := by
    intro name e
    refine iff_of_false nofun ?_
    rintro ⟨x, n, h, -⟩
    exact List.not_mem_nil h.mem.1

theorem Issued.mono (h : s.Issued name) (hle : s.counter ≤ u.counter) : u.Issued name := by
  obtain ⟨stem, k, hstem, hk, hname⟩ := h
  exact ⟨stem, k, hstem, hk.trans hle, hname⟩

theorem IsFirst.placed (h : IsFirst past g x.met) (j : Nat) (hj : x.place? = some j) :
    j < past.length ∧ ∀ y ∈ past, y.place? ≠ some j := by
  obtain ⟨p, hp, rfl⟩ := Option.map_eq_some_iff.1 hj
  rw [hp] at h
  exact ⟨h.1.lt_length, h.1.unmet⟩

namespace Tracks

theorem concat (h : Tracks past s) (hx : Follows past x)
    (hplace : ∀ j, x.place? = some j → j < past.length ∧ ∀ y ∈ past, y.place? ≠ some j)
    (hname : ∀ name, x.event.started? = some name → u.Issued name ∧ ¬ s.Issued name)
    (hcounter : s.counter ≤ u.counter) (hstock : IsStock (past ++ [x]) u.expectations)
    (hlive : IsLive (past ++ [x]) u.executions) : Tracks (past ++ [x]) u where
  independent := by
    refine h.independent.concat hx ?_ fun j hj => (hplace j hj).2
    intro name hstart y hy hold
    exact (hname name hstart).2 (h.issued y hy name hold)
  placed := by
    rw [List.forall_mem_append, List.forall_mem_singleton, List.length_append]
    exact ⟨fun y hy j hj => Nat.lt_add_right _ (h.placed y hy j hj),
      fun j hj => Nat.lt_add_right _ (hplace j hj).1⟩
  issued := by
    rw [List.forall_mem_append, List.forall_mem_singleton]
    exact ⟨fun y hy name hstart => (h.issued y hy name hstart).mono hcounter,
      fun name hstart => (hname name hstart).1⟩
  stock := hstock
  live := hlive

/-- What submits nothing and registers nothing leaves the expectations and the counter. -/
theorem idle (h : Tracks past s) (hx : Follows past x) (hmet : x.met = none)
    (hstart : x.event.started? = none) (hevent : ∀ e, x.event ≠ .expected e)
    (hcounter : u.counter = s.counter) (hexpect : u.expectations = s.expectations)
    (hlive : IsLive (past ++ [x]) u.executions) : Tracks (past ++ [x]) u := by
  have hplace : x.place? = none := by
    rw [Entry.place?, hmet]
    rfl
  refine h.concat hx ?_ ?_ hcounter.ge ?_ hlive
  · rw [hplace]
    nofun
  · rw [hstart]
    nofun
  · rw [hexpect]
    exact h.stock.idle hplace hevent

theorem expect (h : Tracks past s) (e : Expectation) :
    Tracks (past ++ [{ event := .expected e }]) (s.expect e) := by
  have hx : Follows past { event := .expected e } := rfl
  exact h.concat hx nofun nofun (Nat.le_refl _) (h.stock.expect h.placed e)
    (h.live.idle rfl rfl rfl)

theorem submit (h : Tracks past s) (hg : g.IsDashed) : ∃ x : Entry,
    x.event = .submitted g (s.submit g).1 ∧ Tracks (past ++ [x]) (s.submit g).2 := by
  obtain ⟨m, hfirst, hfound, hstock⟩ := h.stock.submit g
  rw [← submit_expectations g s] at hstock
  let x : Entry := ⟨.submitted g (s.submit g).1, m, yield g s⟩
  have hplan : x.plan = SimulatedEngine.plan g s := by
    rw [SimulatedEngine.plan, hfound]
    rfl
  have hstock := hstock x rfl fun e he => by cases he
  have hx : Follows past x := ⟨hfirst, by rw [hplan]; exact plan_answers g s⟩
  refine ⟨x, rfl, ?_⟩
  -- Only a graph that gets a name moves the counter and starts an execution.
  by_cases hnamed : (SimulatedEngine.plan g s).reception = .named
  · obtain ⟨hanswer, hcounter, hexecutions⟩ := submit_of_named hnamed
    have hevent : x.event = .submitted g (.ok (some (nextName g s))) := by rw [← hanswer]
    have hissued : (s.submit g).2.Issued (nextName g s) := ⟨_, _, hg, hcounter.ge, rfl⟩
    have hfresh : ¬ s.Issued (nextName g s) := nextName_not_issued hg
    refine h.concat hx hfirst.placed ?_ (hcounter ▸ Nat.le_succ _) hstock ?_
    · intro name hname
      rw [hevent] at hname
      obtain rfl : nextName g s = name := Option.some.inj hname
      exact ⟨hissued, hfresh⟩
    · rw [hexecutions]
      have hlive := h.live.start hevent fun y hy hold => hfresh (h.issued y hy _ hold)
      rwa [Entry.execution, hplan] at hlive
  · obtain ⟨hanswer, hcounter, hexecutions⟩ := submit_of_unnamed hnamed
    have hstart : x.event.started? = none := by
      show Event.started? (.submitted g (s.submit g).1) = none
      rw [hanswer]
      split
      · rfl
      · rfl
    refine h.concat hx hfirst.placed ?_ hcounter.ge hstock ?_
    · intro name hname
      cases hstart.symm.trans hname
    · rw [hexecutions]
      exact h.live.idle hstart rfl rfl

theorem find (h : Tracks past s) (name : String) :
    Tracks (past ++ [{ event := .found name (s.find name).1 }]) (s.find name).2 := by
  have hlive := h.live.look (x := { event := .found name (s.find name).1 }) rfl
  have hx := h.live.follows_find name
  unfold SimulatedEngine.find at hlive hx ⊢
  dsimp only at hlive hx ⊢
  cases hfound : Table.find? name s.executions with
  | none =>
    rw [hfound] at hlive hx
    exact h.idle hx rfl rfl nofun rfl rfl hlive
  | some e =>
    rw [hfound] at hlive hx
    exact h.idle hx rfl rfl nofun rfl rfl hlive

theorem delete (h : Tracks past s) (name : String) :
    Tracks (past ++ [{ event := .deleted name (s.delete name).1 }]) (s.delete name).2 := by
  unfold SimulatedEngine.delete
  dsimp only
  split
  · exact h.idle rfl rfl rfl nofun rfl rfl (h.live.idle rfl rfl rfl)
  · exact h.idle rfl rfl rfl nofun rfl rfl (h.live.drop rfl)

/-- Each act leaves the engine in the state of the history with one more event. -/
theorem perform (h : Tracks past s) (a : Act) (ha : ∀ g, a = .submit g → g.IsDashed) : ∃ x : Entry,
    x.event = (SimulatedEngine.perform a s).1 ∧
      Tracks (past ++ [x]) (SimulatedEngine.perform a s).2 := by
  cases a with
  | expect e => exact ⟨_, rfl, h.expect e⟩
  | submit g => exact h.submit (ha g rfl)
  | find name => exact ⟨_, rfl, h.find name⟩
  | delete name => exact ⟨_, rfl, h.delete name⟩
  | seed id =>
    refine ⟨{ event := .seeded id }, rfl, ?_⟩
    show Tracks _ (s.seed id)
    unfold seed
    split
    · exact h.idle rfl rfl rfl nofun rfl rfl (h.live.idle rfl rfl rfl)
    · exact h.idle rfl rfl rfl nofun rfl rfl (h.live.idle rfl rfl rfl)
  | failDeletes fail =>
    refine ⟨{ event := .switched fail }, rfl, ?_⟩
    exact h.idle rfl rfl rfl nofun rfl rfl (h.live.idle rfl rfl rfl)

/-- Acts one after another lead to a history of their events. -/
theorem history (h : Tracks past s) (acts : List Act)
    (hdashed : ∀ g, .submit g ∈ acts → g.IsDashed) : ∃ es : List Entry,
    es.map Entry.event = SimulatedEngine.history acts s ∧ IsIndependent (past ++ es) := by
  induction acts generalizing past s with
  | nil => exact ⟨[], rfl, by rw [List.append_nil]; exact h.independent⟩
  | cons a acts ih =>
    obtain ⟨x, hx, hnext⟩ := h.perform a fun g hg => hdashed g (hg ▸ List.mem_cons_self)
    obtain ⟨es, hes, hind⟩ := ih hnext fun g hg => hdashed g (List.mem_cons_of_mem _ hg)
    refine ⟨x :: es, ?_, ?_⟩
    · rw [List.map_cons, hx, hes]
      rfl
    · rwa [List.append_assoc] at hind

end Tracks

/-- The names of the graphs of recipes, checks and clearings end in a dash. Where names do, no two
executions get one name, no expectation is met twice, each graph meets the first expectation that
fits it and is left, and each look at an execution shows the next phase of its own script, and the
last one from then on, until it is dropped. -/
theorem history_independent :
    (∀ id, (Publish.checkGraph id).IsDashed ∧ (Publish.clearGraph id).IsDashed) ∧
    (∀ (r : Recipe) g, r.compile = .ok g → g.IsDashed) ∧
    ∀ acts : List Act, (∀ g, .submit g ∈ acts → g.IsDashed) →
      ∃ es : List Entry, es.map Entry.event = history acts {} ∧ IsIndependent es := by
  refine ⟨fun id => ⟨?_, ?_⟩, fun r g h => ?_, fun acts hdashed => ?_⟩
  · exact Publish.isDashed_checkGraph id
  · exact Publish.isDashed_clearGraph id
  · exact Publish.isDashed_of_compile h
  · exact tracks_nil.history acts hdashed

/-- Three graphs of one name, of which the first meets an expectation although a later one has more
of the name, and the second meets that one; looks at the two executions, before and after one of
them is dropped. -/
def scripted : List Act :=
  [.expect ⟨"a-", .named, [.running, .failed]⟩, .expect ⟨"a-b-", .rejected, []⟩,
    .submit (Graph.empty "a-b-"), .submit (Graph.empty "a-b-"), .submit (Graph.empty "a-b-"),
    .find "a-b-00001", .find "a-b-00002", .find "a-b-00001", .delete "a-b-00001",
    .find "a-b-00001", .find "a-b-00002"]

theorem history_independent_scripted :
    (∀ g, .submit g ∈ scripted → g.IsDashed) ∧ ∃ es : List Entry, IsIndependent es ∧
      es.map Entry.event = [.expected ⟨"a-", .named, [.running, .failed]⟩,
        .expected ⟨"a-b-", .rejected, []⟩,
        .submitted (Graph.empty "a-b-") (.ok (some "a-b-00001")),
        .submitted (Graph.empty "a-b-") (.error (.submission Code.submissionFailed
          "mock engine rejected the workflow" none)),
        .submitted (Graph.empty "a-b-") (.ok (some "a-b-00002")),
        .found "a-b-00001" (.ok (some ⟨"a-b-00001", some .running, []⟩)),
        .found "a-b-00002" (.ok (some ⟨"a-b-00002", some .succeeded, []⟩)),
        .found "a-b-00001" (.ok (some ⟨"a-b-00001", some .failed, []⟩)),
        .deleted "a-b-00001" (.ok ()), .found "a-b-00001" (.ok none),
        .found "a-b-00002" (.ok (some ⟨"a-b-00002", some .succeeded, []⟩))] := by
  have hdashed : ∀ g, .submit g ∈ scripted → g.IsDashed := by
    intro g hg
    obtain rfl : g = Graph.empty "a-b-" := by simpa [scripted] using hg
    rfl
  obtain ⟨es, hes, hind⟩ := history_independent.2.2 scripted hdashed
  exact ⟨hdashed, es, hind, hes.trans (by decide +kernel)⟩

end RecipeFlow.SimulatedEngine
