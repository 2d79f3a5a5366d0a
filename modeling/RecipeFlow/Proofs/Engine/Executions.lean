import RecipeFlow.Proofs.Compile.Names
import RecipeFlow.Proofs.Run.Interleaving
import RecipeFlow.Proofs.Run.Session

/-! The executions of a simulated engine that is not scripted. Each of them has a name of its own,
and is seen to have succeeded until it is dropped. -/
namespace RecipeFlow

variable {τ : Type} {c : EngineConfig} {es : List Exchange} {g : Graph} {name : String}
  {outputs : Table (Table String)} {q : Query} {resolver : Dataset.Resolver τ}

namespace Text

variable {m n width : Nat} {stem stem' : String}

theorem toList_padded (width n : Nat) : (padded width n).toList =
    List.replicate (width - (toString n).toList.length) '0' ++ (toString n).toList := by
  simp [padded]

theorem isDigit_of_mem_padded {x : Char} (h : x ∈ (padded width n).toList) :
    x.isDigit = true := by
  rw [toList_padded, List.mem_append] at h
  rcases h with h | h
  · rw [List.eq_of_mem_replicate h]
    rfl
  · exact isDigit_of_mem_toString h

/-- Zeros in front do not change a number. -/
theorem padded_inj (h : padded width m = padded width n) : m = n := by
  have hvalue : ∀ k, Nat.ofDigitChars 10 (padded width k).toList 0 = k := by
    intro k
    rw [toList_padded, Nat.ofDigitChars_append, Nat.ofDigitChars_replicate_zero,
      Nat.toString_eq_repr, Nat.toList_repr]
    simp [Nat.ofDigitChars_ten_toDigits]
  rw [← hvalue m, h, hvalue]

/-- What is behind the last dash of a name can be told from what is before it. -/
theorem append_padded_inj (hs : stem.toList.getLast? = some '-')
    (hs' : stem'.toList.getLast? = some '-')
    (h : stem ++ padded width m = stem' ++ padded width n) : m = n := by
  have hdigits : ∀ {stem : String} (k : Nat), stem.toList.getLast? = some '-' →
      (stem ++ padded width k).toList.reverse.takeWhile Char.isDigit =
        (padded width k).toList.reverse := by
    intro stem k hs
    obtain ⟨ys, hys⟩ := List.getLast?_eq_some_iff.1 hs
    rw [String.toList_append, hys, List.reverse_append, List.takeWhile_append_of_pos]
    · simp
    · exact fun x hx => isDigit_of_mem_padded (List.mem_reverse.1 hx)
  have hrev : (padded width m).toList.reverse = (padded width n).toList.reverse := by
    rw [← hdigits m hs, h, hdigits n hs']
  exact padded_inj (String.toList_inj.1 (List.reverse_inj.1 hrev))

end Text

/-- A graph whose executions have their numbers behind a dash. -/
def Graph.IsDashed (g : Graph) : Prop :=
  g.generateName.toList.getLast? = some '-'

namespace Publish

theorem isDashed_of_ending {x : Char} (h : ending g = ['-', x]) : g.IsDashed := by
  rw [Graph.IsDashed, List.getLast?_eq_head?_reverse]
  cases hrev : g.generateName.toList.reverse with
  | nil => simp [ending, hrev] at h
  | cons y ys =>
    rw [ending, hrev] at h
    exact congrArg some (List.cons.inj h).1

theorem isDashed_checkGraph (id : String) : (checkGraph id).IsDashed :=
  isDashed_of_ending (ending_checkGraph id)

theorem isDashed_clearGraph (id : String) : (clearGraph id).IsDashed :=
  isDashed_of_ending (ending_clearGraph id)

theorem isDashed_of_compile {r : Recipe} (h : r.compile = .ok g) : g.IsDashed := by
  rcases ending_of_compile h with hending | hending
  · exact isDashed_of_ending hending
  · exact isDashed_of_ending hending

end Publish

namespace Exchange

/-- Whatever is submitted has its number behind a dash. -/
def IsDashed (x : Exchange) : Prop :=
  ∀ g, x.query.submitted? = some g → g.IsDashed

/-- A submission that is told a name. -/
def Gives (name : String) (x : Exchange) : Prop :=
  ∃ g c, x = ⟨.submit g c, .ok (some name)⟩

end Exchange

/-- The phase of an execution that comes last, and stays. -/
def Expectation.last (e : Expectation) : Phase :=
  e.phases.getLast?.getD .succeeded

namespace SimulatedEngine

variable {s : SimulatedEngine}

/-- The name that the next execution of a graph gets. -/
def nextName (g : Graph) (s : SimulatedEngine) : String :=
  g.generateName ++ Text.padded 5 (s.counter + 1)

/-- A name with the number of an execution that has one. -/
def Issued (s : SimulatedEngine) (name : String) : Prop :=
  ∃ stem k, stem.toList.getLast? = some '-' ∧ k ≤ s.counter ∧ name = stem ++ Text.padded 5 k

/-- An execution that is seen to have succeeded, now and later. -/
def Shows (s : SimulatedEngine) (name : String) (outputs : Table (Table String)) : Prop :=
  ∃ ahead, (∀ p ∈ ahead, p = .succeeded) ∧
    Table.find? name s.executions = some ⟨ahead, .succeeded, outputs⟩

theorem nextName_not_issued (hg : g.IsDashed) : ¬ s.Issued (nextName g s) := by
  rintro ⟨stem, k, hstem, hk, hname⟩
  have hnumber : s.counter + 1 = k := Text.append_padded_inj hg hstem hname
  omega

theorem applyEffects_executions (g : Graph) (s : SimulatedEngine) :
    (s.applyEffects g).executions = s.executions := by
  have hseed : ∀ (ids : List String) (s : SimulatedEngine),
      (ids.foldl (fun s id => s.seed id) s).executions = s.executions := by
    intro ids
    induction ids with
    | nil => exact fun _ => rfl
    | cons id ids ih =>
      intro s
      rw [List.foldl_cons, ih]
      unfold seed
      split <;> rfl
  rw [applyEffects, hseed]
  split <;> rfl

/-- What is in store for a graph: the first expectation that fits, or to succeed at once. -/
def plan (g : Graph) (s : SimulatedEngine) : Expectation :=
  (takeFirst g.generateName s.expectations).1.getD ⟨"", .named, [.succeeded]⟩

/-- What the next execution of a graph outputs, which is nothing unless it ends well. -/
def yield (g : Graph) (s : SimulatedEngine) : Table (Table String) :=
  if (plan g s).last = .succeeded then outputsOf g s else []

theorem submit_of_named (h : (plan g s).reception = .named) :
    (s.submit g).1 = .ok (some (nextName g s)) ∧ (s.submit g).2.counter = s.counter + 1 ∧
      (s.submit g).2.executions = Table.insert (nextName g s)
        ⟨(plan g s).phases, (plan g s).last, yield g s⟩ s.executions := by
  unfold yield Expectation.last
  unfold plan at h ⊢
  unfold submit
  dsimp only
  rw [h]
  refine ⟨rfl, rfl, ?_⟩
  simp only [start]
  split
  · rw [applyEffects_executions]
    rfl
  · rfl

theorem submit_of_unnamed (h : (plan g s).reception ≠ .named) :
    (s.submit g).1 = (if (plan g s).reception = .unnamed then .ok none else
      .error (.submission Code.submissionFailed "mock engine rejected the workflow" none)) ∧
    (s.submit g).2.counter = s.counter ∧ (s.submit g).2.executions = s.executions := by
  unfold plan at h ⊢
  unfold submit
  dsimp only
  split
  · next hr => simp [hr]
  · next hr => simp [hr]
  · next hr => exact absurd hr h

theorem submit_named (h : s.expectations = []) (g : Graph) :
    (s.submit g).1 = .ok (some (nextName g s)) ∧ (s.submit g).2.counter = s.counter + 1 ∧
      (s.submit g).2.executions =
        Table.insert (nextName g s) ⟨[.succeeded], .succeeded, outputsOf g s⟩ s.executions := by
  have hplan : plan g s = ⟨"", .named, [.succeeded]⟩ := by
    rw [plan, h]
    rfl
  have hyield : yield g s = outputsOf g s := by
    rw [yield, hplan]
    rfl
  have hnamed := submit_of_named (s := s) (g := g) (by rw [hplan])
  rw [hplan, hyield] at hnamed
  exact hnamed

theorem find_of_shows (h : s.Shows name outputs) :
    (s.find name).1 = .ok (some ⟨name, some .succeeded, outputs⟩) := by
  obtain ⟨ahead, hahead, hfound⟩ := h
  rw [find, hfound]
  cases ahead with
  | nil => rfl
  | cons p ahead =>
    rw [hahead p List.mem_cons_self]
    rfl

theorem Shows.insert {name' : String} {ahead : List Phase} {outputs' : Table (Table String)}
    {u : SimulatedEngine} (h : s.Shows name outputs) (hne : name ≠ name')
    (hu : u.executions = Table.insert name' ⟨ahead, .succeeded, outputs'⟩ s.executions) :
    u.Shows name outputs := by
  obtain ⟨ahead', hahead', hfound⟩ := h
  refine ⟨ahead', hahead', ?_⟩
  rw [hu, Table.find?_insert, if_neg hne, hfound]

theorem Shows.find (h : s.Shows name outputs) (name' : String) :
    (s.find name').2.Shows name outputs := by
  obtain ⟨ahead, hahead, hfound⟩ := h
  rw [SimulatedEngine.find]
  cases hother : Table.find? name' s.executions with
  | none => exact ⟨ahead, hahead, hfound⟩
  | some e =>
    by_cases hname : name = name'
    · subst hname
      obtain rfl : _ = e := Option.some.inj (hfound.symm.trans hother)
      refine ⟨ahead.drop 1, fun p hp => hahead p (List.mem_of_mem_drop hp), ?_⟩
      exact Table.find?_insert.trans (if_pos rfl)
    · refine ⟨ahead, hahead, ?_⟩
      exact (Table.find?_insert.trans (if_neg hname)).trans hfound

theorem Shows.delete {name' : String} (h : s.Shows name outputs) (hne : name ≠ name') :
    (s.delete name').2.Shows name outputs := by
  obtain ⟨ahead, hahead, hfound⟩ := h
  rw [SimulatedEngine.delete]
  split
  · exact ⟨ahead, hahead, hfound⟩
  · exact ⟨ahead, hahead, (Table.find?_filter_ne hne).trans hfound⟩

end SimulatedEngine

open SimulatedEngine

variable {s : Clocked (SimulatedEngine × τ)}

theorem answer_counter (h : s.state.1.expectations = []) (q : Query) :
    s.state.1.counter ≤ ((simulatedWorld resolver).answer q s).2.state.1.counter := by
  cases q with
  | submit g c =>
    exact (Nat.le_succ _).trans_eq (submit_named h g).2.1.symm
  | find name c =>
    simp only [World.ofParts, Engine.beside, engine, SimulatedEngine.find]
    split
    · exact Nat.le_refl _
    · exact Nat.le_refl _
  | delete name c =>
    simp only [World.ofParts, Engine.beside, engine, SimulatedEngine.delete]
    split
    · exact Nat.le_refl _
    · exact Nat.le_refl _
  | list | sleep | clock => exact Nat.le_refl _

/-- Only to be dropped, or to lose its name, keeps an execution from being seen. -/
theorem answer_shows (h : s.state.1.expectations = []) (hs : s.state.1.Shows name outputs)
    (hkept : q.dropped? ≠ some name)
    (hfresh : ∀ g, q.submitted? = some g → name ≠ nextName g s.state.1) :
    ((simulatedWorld resolver).answer q s).2.state.1.Shows name outputs := by
  cases q with
  | submit g c => exact hs.insert (hfresh g rfl) (submit_named h g).2.2
  | find name' c => exact hs.find name'
  | delete name' c => exact hs.delete fun he => hkept (congrArg some he.symm)
  | list | sleep | clock => exact hs

variable (resolver) in
theorem after_expectations (h : s.state.1.expectations = []) (es : List Exchange) :
    ((simulatedWorld resolver).after s es).state.1.expectations = [] := by
  rw [(after_agrees s es).expectations]
  exact submitAll_unscripted h _

variable (resolver) in
/-- A name stays given. -/
theorem after_issued (h : s.state.1.expectations = []) (hissued : s.state.1.Issued name)
    (es : List Exchange) : ((simulatedWorld resolver).after s es).state.1.Issued name := by
  induction es generalizing s with
  | nil => exact hissued
  | cons x es ih =>
    obtain ⟨stem, k, hstem, hk, hname⟩ := hissued
    exact ih (after_expectations resolver h [x])
      ⟨stem, k, hstem, hk.trans (answer_counter h x.query), hname⟩

variable (resolver) in
/-- What has been given a name is seen until it is dropped. -/
theorem after_shows (h : s.state.1.expectations = []) (hissued : s.state.1.Issued name)
    (hs : s.state.1.Shows name outputs) (hdashed : ∀ x ∈ es, x.IsDashed)
    (hkept : ∀ x ∈ es, x.query.dropped? ≠ some name) :
    ((simulatedWorld resolver).after s es).state.1.Shows name outputs := by
  induction es generalizing s with
  | nil => exact hs
  | cons x es ih =>
    obtain ⟨hx, hes⟩ := List.forall_mem_cons.1 hkept
    obtain ⟨hdash, hdashes⟩ := List.forall_mem_cons.1 hdashed
    have hfresh : ∀ g, x.query.submitted? = some g → name ≠ nextName g s.state.1 := by
      rintro g hg rfl
      exact nextName_not_issued (hdash g hg) hissued
    exact ih (after_expectations resolver h [x]) (after_issued resolver h hissued [x])
      (answer_shows h hs hx hfresh) hdashes hes

/-- A submission gets a name that was not given before, under which its outcome is seen. -/
theorem answers_submit {a : Except Fault (Option String)} (h : s.state.1.expectations = [])
    (ha : (simulatedWorld resolver).Answers s (⟨.submit g c, a⟩ :: es)) :
    a = .ok (some (nextName g s.state.1)) ∧
    (g.IsDashed → ((simulatedWorld resolver).answer (.submit g c) s).2.state.1.Issued
      (nextName g s.state.1)) ∧
    ((simulatedWorld resolver).answer (.submit g c) s).2.state.1.Shows (nextName g s.state.1)
      (outputsOf g s.state.1) := by
  obtain ⟨hname, hcounter, hexecutions⟩ := submit_named h g
  refine ⟨ha.1.symm.trans hname, fun hg => ⟨_, _, hg, hcounter.ge, rfl⟩, [.succeeded], by simp, ?_⟩
  show Table.find? _ (s.state.1.submit g).2.executions = _
  rw [hexecutions]
  exact Table.find?_insert.trans (if_pos rfl)

/-- No later submission gets the name of one. -/
theorem gives_once {x y : Exchange} (h : s.state.1.expectations = [])
    (ha : (simulatedWorld resolver).Answers s (x :: es)) (hdashed : ∀ y ∈ x :: es, y.IsDashed)
    (hx : x.Gives name) (hy : y.Gives name) : y ∉ es := by
  obtain ⟨g, c, rfl⟩ := hx
  obtain ⟨g', c', rfl⟩ := hy
  intro hmem
  obtain ⟨hdash, hdashes⟩ := List.forall_mem_cons.1 hdashed
  obtain ⟨before, after, rfl⟩ := List.append_of_mem hmem
  obtain ⟨hname, hissued, -⟩ := answers_submit h ha
  cases hname
  have hfirst := after_expectations resolver h [⟨.submit g c, .ok none⟩]
  have hlater := after_issued resolver hfirst (hissued (hdash g rfl)) before
  obtain ⟨hagain, -⟩ := answers_submit (after_expectations resolver hfirst before)
    (World.answers_append.1 ha.2).2
  rw [Option.some.inj (Except.ok.inj hagain)] at hlater
  exact nextName_not_issued (hdashes _ hmem g' rfl) hlater

/-- A look at an execution that the engine knows shows it under its name. -/
theorem answer_find_name {e : Execution}
    (h : ((simulatedWorld resolver).answer (.find name c) s).1 = .ok (some e)) : e.name = name := by
  simp only [World.ofParts, Engine.beside, engine, SimulatedEngine.find] at h
  split at h
  · cases h
  · cases h
    rfl

end RecipeFlow
