import RecipeFlow.Proofs.Engine.Executions
import RecipeFlow.Proofs.Recipe.Prepared
import RecipeFlow.Proofs.Run.Cleanup

/-! Two runs for one directory of the volume at once. The answer to a check holds for the moment at
which it was submitted: a run is refused if the other one's graph was there before its check, and
else it is not held up, whatever happens between its check and its graph. -/
namespace RecipeFlow

open Dialogue Turn

variable {α β τ : Type} {c : EngineConfig} {d : Dialogue α} {e : Dialogue β}
  {es es' : List Exchange} {g : Graph} {id name : String} {looks : Nat}
  {outputs : Table (Table String)} {q : Query} {r : Recipe} {resolver : Dataset.Resolver τ}
  {s : Clocked (SimulatedEngine × τ)}

/-! What a run drops. -/

/-- What is dropped has been submitted. -/
def DropsOwn (es : List Exchange) : Prop :=
  ∀ x ∈ es, ∀ name, x.query.dropped? = some name → ∃ y ∈ es, y.Gives name

theorem DropsOwn.append (h : DropsOwn es) (h' : DropsOwn es') : DropsOwn (es ++ es') := by
  intro x hx name hname
  rcases List.mem_append.1 hx with hx | hx
  · obtain ⟨y, hy, hgives⟩ := h x hx name hname
    exact ⟨y, List.mem_append_left _ hy, hgives⟩
  · obtain ⟨y, hy, hgives⟩ := h' x hx name hname
    exact ⟨y, List.mem_append_right _ hy, hgives⟩

theorem dropsOwn_of_keeping {out : Outcome α} (hd : d.AsksOnly Query.IsKeeping)
    (h : Runs d es out) : DropsOwn es := by
  intro x hx name hname
  cases (hd.of_runs h x hx).symm.trans hname

namespace Publish

variable {o : PollOptions} {out : Outcome Bool}

theorem dropsOwn_isPublished (h : Runs (isPublished looks c o id) es out)
    (hnamed : ∀ x ∈ es, x.IsNamed) : DropsOwn es := by
  rw [isPublished_eq] at h
  rcases runs_bind.1 h with ⟨e, pre, post, rfl, hpre, hpost⟩ | ⟨f, -, hpre⟩ | ⟨-, hpre⟩
  · -- The execution that is dropped was submitted, and then seen.
    obtain ⟨-, n, before, between, after, rfl⟩ := Lifecycle.runToCompletion_observed hpre
    obtain ⟨a, rest, rfl, hrest⟩ := runs_ask.1 hpost
    have he : e.name = n := hnamed ⟨.find n c, .ok (some e)⟩ (by simp)
    obtain ⟨rfl, -⟩ := runs_ofOutcome.1 hrest
    intro x hx name hname
    rcases List.mem_append.1 hx with hx | hx
    · cases (Lifecycle.runToCompletion_isKeeping.of_runs hpre x hx).symm.trans hname
    · obtain rfl := List.mem_singleton.1 hx
      cases hname
      exact ⟨⟨.submit (checkGraph id) c, .ok (some n)⟩, by simp, checkGraph id, c, by rw [he]⟩
  · exact dropsOwn_of_keeping Lifecycle.runToCompletion_isKeeping hpre
  · exact dropsOwn_of_keeping Lifecycle.runToCompletion_isKeeping hpre

end Publish

namespace Recipe

variable {files : Files} {resolvable : Bool} {dir : String} {o : SubmitOptions}
  {out : Outcome String}

theorem dropsOwn_of_started (h : Started looks c o r es out) (ho : o.overwrite = false)
    (hnamed : ∀ x ∈ es, x.IsNamed) : DropsOwn es := by
  have hgated : ∀ {es : List Exchange} {b : Outcome Bool}, (∀ x ∈ es, x.IsNamed) →
      Runs (Publish.isBlocked looks c o.poll o.overwrite r) es b → DropsOwn es := by
    intro es b hnamed hgate
    rw [ho, Publish.isBlocked, if_neg Bool.false_ne_true] at hgate
    split at hgate
    · exact Publish.dropsOwn_isPublished hgate hnamed
    · obtain ⟨rfl, -⟩ := runs_pure.1 hgate
      exact List.forall_mem_nil _
  cases h with
  | launched hgate hg hlaunch =>
    obtain ⟨hpre, -⟩ := List.forall_mem_append.1 hnamed
    refine (hgated hpre hgate).append (dropsOwn_of_keeping ?_ hlaunch)
    refine asksOnly_bind (Lifecycle.submit_asksOnly rfl) fun n => ?_
    split
    · exact asksOnly_bind Lifecycle.wait_isKeeping fun _ => trivial
    · trivial
  | uncompiled hgate _ => exact hgated hnamed hgate
  | blocked hgate => exact hgated hnamed hgate
  | failed hgate => exact hgated hnamed hgate
  | stalled hgate => exact hgated hnamed hgate

theorem dropsOwn_submit (h : Runs (submit looks files resolvable c o dir) es out)
    (ho : o.overwrite = false) (hnamed : ∀ x ∈ es, x.IsNamed) : DropsOwn es := by
  have hload : (loadResolved files resolvable dir).AsksOnly Query.IsKeeping :=
    loadResolved_asksOnly.mono fun _ => Query.IsListing.isKeeping
  rcases runs_bind.1 h with ⟨r, pre, post, rfl, hpre, hpost⟩ | ⟨f, -, hpre⟩ | ⟨-, hpre⟩
  · obtain ⟨-, hnamed⟩ := List.forall_mem_append.1 hnamed
    exact (dropsOwn_of_keeping hload hpre).append
      (dropsOwn_of_started (started_of_runs hpost) ho hnamed)
  · exact dropsOwn_of_keeping hload hpre
  · exact dropsOwn_of_keeping hload hpre

end Recipe

/-! What a run sees of what it submits. -/

/-- A look at an execution that was not dropped before it sees that it has succeeded. -/
def SeenAs (name : String) (outputs : Table (Table String)) (es : List Exchange) : Prop :=
  ∀ before c a after, es = before ++ ⟨.find name c, a⟩ :: after →
    (∀ x ∈ before, x.query.dropped? ≠ some name) →
      a = .ok (some ⟨name, some .succeeded, outputs⟩)

theorem SeenAs.of_append (h : SeenAs name outputs (es ++ es')) : SeenAs name outputs es := by
  rintro before c a after rfl
  exact h before c a (after ++ es') (by simp)

namespace Lifecycle

variable {o : PollOptions}

/-- An execution that is seen to have succeeded is waited for in one look. -/
theorem wait_seen {out : Outcome Execution} (h : Runs (wait (looks + 1) c name o) es out)
    (hseen : SeenAs name outputs es) : out = .done ⟨name, some .succeeded, outputs⟩ := by
  obtain ⟨started, rest, rfl, hwatch⟩ := runs_ask.1 h
  change Runs (watch c name o started (looks + 1)) rest out at hwatch
  rw [watch_succ] at hwatch
  obtain ⟨_, _, rfl, hlook⟩ := runs_ask.1 hwatch
  obtain ⟨a, rest, rfl, hverdict⟩ := runs_ask.1 hlook
  obtain rfl := hseen [⟨.clock, started⟩, ⟨.sleep o.interval, ()⟩] c a rest rfl
    (by simp [Query.dropped?])
  exact (runs_done.1 hverdict).2

/-- What follows a wait for such an execution goes on from its success. -/
theorem runs_bind_seen {k : Execution → Dialogue α} {out : Outcome α}
    (h : Runs (wait (looks + 1) c name o >>= k) es out) (hseen : SeenAs name outputs es) :
    ∃ pre post, es = pre ++ post ∧ Runs (k ⟨name, some .succeeded, outputs⟩) post out := by
  rcases runs_bind.1 h with ⟨e, pre, post, rfl, hwait, hpost⟩ | ⟨f, -, hwait⟩ | ⟨-, hwait⟩
  · cases wait_seen hwait hseen.of_append
    exact ⟨pre, post, rfl, hpost⟩
  · cases wait_seen hwait hseen
  · cases wait_seen hwait hseen

end Lifecycle

/-- A check is answered as its execution is seen. -/
theorem Publish.isPublished_seen {o : PollOptions} {out : Outcome Bool} {t : SimulatedEngine}
    (h : Runs (isPublished (looks + 1) c o id)
      (⟨.submit (checkGraph id) c, .ok (some name)⟩ :: es) out)
    (hseen : SeenAs name (SimulatedEngine.outputsOf (checkGraph id) t) es) :
    out = .done (t.isPublished id) := by
  rw [isPublished_eq] at h
  obtain ⟨a, rest, hes, h⟩ := runs_ask.1 h
  cases hes
  obtain ⟨pre, post, rfl, hpost⟩ := Lifecycle.runs_bind_seen h hseen
  obtain ⟨_, rest, rfl, hanswer⟩ := runs_ask.1 hpost
  rw [reading_eq, readAnswer?_outputsOf] at hanswer
  exact (runs_done.1 hanswer).2

theorem Recipe.launch_seen {o : SubmitOptions} {out : Outcome String}
    (h : Runs (launch (looks + 1) c o g) (⟨.submit g c, .ok (some name)⟩ :: es) out)
    (hseen : SeenAs name outputs es) : out = .done name := by
  obtain ⟨a, rest, hes, h⟩ := runs_ask.1 h
  cases hes
  change Runs (if o.wait then _ else _) _ _ at h
  split at h
  · obtain ⟨pre, post, rfl, hpost⟩ := Lifecycle.runs_bind_seen h hseen
    exact (runs_pure.1 hpost).2
  · exact (runs_pure.1 h).2

namespace Interleaves

variable {a : Except Fault (Option String)} {pre post ts : List Turn} {out : Outcome α}
  {out' : Outcome β}

theorem isNamed (h : Interleaves (simulatedWorld resolver) d e s ts out out') :
    ∀ x ∈ both ts, x.IsNamed := by
  rintro ⟨q, a⟩ hx
  obtain ⟨t, ht⟩ := h.answers.of_mem hx
  cases q with
  | find name c =>
    rcases a with f | _ | e
    · trivial
    · trivial
    · exact answer_find_name ht
  | submit | delete | list | sleep | clock => trivial

/-- The two programs are never told the same name. -/
theorem gives_disjoint {x y : Exchange}
    (h : Interleaves (simulatedWorld resolver) d e s ts out out')
    (hs : s.state.1.expectations = []) (hdashed : ∀ x ∈ both ts, x.IsDashed)
    (hx : x ∈ lefts ts) (hxname : x.Gives name) (hyname : y.Gives name) : y ∉ rights ts := by
  have hlater : ∀ before x after y, both ts = before ++ x :: after → x.Gives name →
      y.Gives name → y ∉ after := by
    intro before x after y hsplit
    have ha := h.answers
    rw [hsplit] at ha hdashed
    exact gives_once (after_expectations resolver hs before) (World.answers_append.1 ha).2
      fun y hy => hdashed y (List.mem_append_right _ hy)
  intro hy
  obtain ⟨pre, post, rfl⟩ := List.append_of_mem (mem_lefts.1 hx)
  -- One of the two was told the name first.
  rcases List.mem_append.1 (mem_rights.1 hy) with hmem | hmem
  · obtain ⟨before, between, rfl⟩ := List.append_of_mem hmem
    exact hlater (both before) y (both between ++ x :: both post) x (by simp) hyname hxname
      (by simp)
  · have hpost : .inr y ∈ post := by simpa using hmem
    exact hlater (both pre) x (both post) y (by simp) hxname hyname
      (mem_both.2 (.inr (mem_rights.2 hpost)))

/-- What the first program submits is named, and seen as what it was when it was submitted. -/
theorem seen (h : Interleaves (simulatedWorld resolver) d e s ts out out')
    (hs : s.state.1.expectations = []) (hdashed : ∀ x ∈ both ts, x.IsDashed)
    (hown : DropsOwn (rights ts)) (hts : ts = pre ++ .inl ⟨.submit g c, a⟩ :: post) :
    ∃ name, a = .ok (some name) ∧ SeenAs name (SimulatedEngine.outputsOf g
      ((simulatedWorld resolver).after s (both pre)).state.1) (lefts post) := by
  subst hts
  have hpre := after_expectations resolver hs (both pre)
  have ha := h.answers
  rw [both_append, both_inl, World.answers_append] at ha
  obtain ⟨rfl, hissued, hshows⟩ := answers_submit hpre ha.2
  refine ⟨_, rfl, ?_⟩
  intro before c' b after hpost hkept
  obtain ⟨mid, rest, rfl, rfl, rfl⟩ := lefts_eq_append_cons hpost
  have hdashed' := hdashed
  rw [both_append, both_inl, List.forall_mem_append, List.forall_mem_cons, both_append,
    List.forall_mem_append] at hdashed'
  obtain ⟨-, hg, hmid, -⟩ := hdashed'
  have hkept' : ∀ x ∈ both mid, x.query.dropped? ≠
      some (SimulatedEngine.nextName g ((simulatedWorld resolver).after s (both pre)).state.1) := by
    intro x hx hdropped
    rcases mem_both.1 hx with hx | hx
    · exact hkept x hx hdropped
    · -- The other program would have been told the name, too.
      obtain ⟨y, hy, hgives⟩ := hown x (by simp [hx]) _ hdropped
      exact h.gives_disjoint hs hdashed (by simp) ⟨g, c, rfl⟩ hgives hy
  have hlook := ha.2.2
  rw [both_append, both_inl, World.answers_append] at hlook
  have hfound := after_shows resolver (after_expectations resolver hpre [⟨.submit g c, .ok none⟩])
    (hissued (hg g rfl)) hshows hmid hkept'
  exact hlook.2.1.symm.trans (SimulatedEngine.find_of_shows hfound)

end Interleaves

/-! What two runs for one directory submit. -/

/-- A shell recipe whose results go to a directory of the volume. -/
def Recipe.IsFor (id : String) (r : Recipe) : Prop :=
  r.id = id ∧ r.output = .pvc ∧ ∃ w, r.workflow = .shell w

/-- What a run for a directory submits: its check, or the graph of its recipe. -/
def Graph.IsFor (id : String) (g : Graph) : Prop :=
  g = Publish.checkGraph id ∨ ∃ r : Recipe, r.IsFor id ∧ r.compile = .ok g

theorem Graph.IsFor.isDashed (h : g.IsFor id) : g.IsDashed := by
  rcases h with rfl | ⟨r, -, hg⟩
  · exact Publish.isDashed_checkGraph id
  · exact Publish.isDashed_of_compile hg

/-- The directory is filled by the first graph that is not a check. -/
theorem SimulatedEngine.mem_volume_submitAll {t : SimulatedEngine} {gs : List Graph}
    (ht : t.expectations = []) (hgs : ∀ g ∈ gs, g.IsFor id) :
    id ∈ (t.submitAll gs).volume ↔ id ∈ t.volume ∨ ∃ g ∈ gs, g ≠ Publish.checkGraph id := by
  induction gs generalizing t with
  | nil => simp [submitAll]
  | cons g gs ih =>
    obtain ⟨hg, hgs⟩ := List.forall_mem_cons.1 hgs
    have hstep : id ∈ (t.submit g).2.volume ↔ id ∈ t.volume ∨ g ≠ Publish.checkGraph id := by
      rcases hg with rfl | ⟨r, ⟨hid, hout, w, hw⟩, hg⟩
      · simp [submit_checkGraph]
      · rw [submit_compiled ht hg hw, Recipe.deposit, hid]
        have hne := Publish.compile_ne_checkGraph hg id
        split
        · simp [hne]
        · next hin => simpa [hout, hne] using hin
    refine (ih (submit_unscripted ht g).2.1 hgs).trans ?_
    rw [hstep, or_assoc]
    simp

namespace Recipe

variable {o : SubmitOptions} {out : Outcome String}

theorem gate_of_isFor (hr : r.IsFor id) : Publish.gate false r = [Publish.checkGraph id] := by
  obtain ⟨rfl, hout, -⟩ := hr
  simp [Publish.gate, hout, Output.isQueryable]

theorem isBlocked_of_isFor (hr : r.IsFor id) :
    Publish.isBlocked looks c o.poll false r = Publish.isPublished looks c o.poll id := by
  obtain ⟨rfl, hout, -⟩ := hr
  simp [Publish.isBlocked, hout, Output.isQueryable]

theorem isFor_of_started (h : Started looks c o r es out) (hr : r.IsFor id)
    (ho : o.overwrite = false) : ∀ g ∈ submissions es, g.IsFor id := by
  have hgate : ∀ g ∈ Publish.gate o.overwrite r, g.IsFor id := by
    rw [ho, gate_of_isFor hr]
    exact List.forall_mem_singleton.2 (.inl rfl)
  cases h with
  | launched hblocked hg hlaunch =>
    rw [submissions_append, Publish.isBlocked_submissions hblocked, submissions_launch hlaunch]
    exact List.forall_mem_append.2 ⟨hgate, List.forall_mem_singleton.2 (.inr ⟨r, hr, hg⟩)⟩
  | uncompiled hblocked _ => rwa [Publish.isBlocked_submissions hblocked]
  | blocked hblocked => rwa [Publish.isBlocked_submissions hblocked]
  | failed hblocked => rwa [Publish.isBlocked_submissions hblocked]
  | stalled hblocked => rwa [Publish.isBlocked_submissions hblocked]

end Recipe

namespace Call

variable {x y : Call} {out : Outcome String} {r' : Recipe} {ts : List Turn}

/-- Loading leaves a recipe the one of its directory. -/
theorem isFor_of_load {loaded : Recipe} (hx : Recipe.ofDirectory x.files x.dir = .ok r)
    (hr : r.IsFor id) (h : Runs x.load es (.done loaded)) : loaded.IsFor id := by
  obtain ⟨r', es', hfound, hresolve⟩ := Recipe.loadResolved_done h
  obtain rfl := Except.ok.inj (hx.symm.trans hfound)
  obtain ⟨is, -, rfl⟩ := Recipe.resolve_done hresolve
  exact hr

theorem submissions_load {load : List Exchange} {loaded : Outcome Recipe}
    (h : Runs x.load load loaded) : submissions load = [] :=
  submissions_listing (Recipe.loadResolved_asksOnly.of_runs h)

theorem isFor_of_submit (hx : Recipe.ofDirectory x.files x.dir = .ok r) (hr : r.IsFor id)
    (ho : x.options.overwrite = false) (h : Runs (x.submit looks) es out) :
    ∀ g ∈ submissions es, g.IsFor id := by
  rcases runs_bind.1 h with ⟨loaded, load, rest, rfl, hload, hstart⟩ | ⟨f, -, hload⟩ | ⟨-, hload⟩
  · rw [submissions_append, submissions_load hload, List.nil_append]
    exact Recipe.isFor_of_started (Recipe.started_of_runs hstart) (isFor_of_load hx hr hload) ho
  · rw [submissions_load (x := x) hload]
    exact List.forall_mem_nil _
  · rw [submissions_load (x := x) hload]
    exact List.forall_mem_nil _

/-- How one of two runs for a directory ends, seen from the moment of its check. -/
inductive Decided (x : Call) (id : String) (ts : List Turn) : Outcome String → Prop
  /-- Its recipe was not loaded, and nothing was submitted. -/
  | unloaded {f : Fault} (hload : Runs x.load (lefts ts) (.failed f)) : Decided x id ts (.failed f)
  /-- The other run's graph had been submitted before. -/
  | refused {pre post : List Turn} {a : Except Fault (Option String)}
      (hcheck : ts = pre ++ .inl ⟨.submit (Publish.checkGraph id) x.config, a⟩ :: post)
      (hlate : ∃ g ∈ submissions (rights pre), g ≠ Publish.checkGraph id)
      (honly : submissions (lefts ts) = [Publish.checkGraph id]) :
      Decided x id ts (.failed (.published id))
  /-- The other run had submitted no more than its check. -/
  | granted {pre post : List Turn} {a : Except Fault (Option String)} {loaded : Recipe}
      {g : Graph} {name : String}
      (hcheck : ts = pre ++ .inl ⟨.submit (Publish.checkGraph id) x.config, a⟩ :: post)
      (hearly : ∀ g ∈ submissions (rights pre), g = Publish.checkGraph id)
      (hload : Runs x.load (lefts pre) (.done loaded)) (hg : loaded.compile = .ok g)
      (hboth : submissions (lefts ts) = [Publish.checkGraph id, g]) : Decided x id ts (.done name)
  | uncompiled {pre post : List Turn} {a : Except Fault (Option String)} {loaded : Recipe}
      {f : Fault}
      (hcheck : ts = pre ++ .inl ⟨.submit (Publish.checkGraph id) x.config, a⟩ :: post)
      (hearly : ∀ g ∈ submissions (rights pre), g = Publish.checkGraph id)
      (hload : Runs x.load (lefts pre) (.done loaded)) (hf : loaded.compile = .error f)
      (honly : submissions (lefts ts) = [Publish.checkGraph id]) : Decided x id ts (.failed f)

/-- The first run's check comes before the second one's graph. -/
def ChecksFirst (id : String) (ts : List Turn) : Prop :=
  ∃ pre c a post, ts = pre ++ .inl ⟨.submit (Publish.checkGraph id) c, a⟩ :: post ∧
    ∀ g ∈ submissions (rights pre), g = Publish.checkGraph id

theorem Decided.checksFirst (h : x.Decided id ts out)
    (hg : ∃ g ∈ submissions (lefts ts), g ≠ Publish.checkGraph id) : ChecksFirst id ts := by
  obtain ⟨g, hg, hne⟩ := hg
  cases h with
  | unloaded hload =>
    rw [submissions_load hload] at hg
    cases hg
  | refused _ _ honly =>
    rw [honly] at hg
    exact absurd (List.mem_singleton.1 hg) hne
  | granted hcheck hearly _ _ _ => exact ⟨_, _, _, _, hcheck, hearly⟩
  | uncompiled _ _ _ _ honly =>
    rw [honly] at hg
    exact absurd (List.mem_singleton.1 hg) hne

variable {out' : Outcome β}

/-- What is there when the check is submitted. -/
theorem isPublished_after {pre : List Turn} {loaded : Outcome Recipe}
    (hs : s.state.1.expectations = []) (hid : id ∉ s.state.1.volume)
    (hload : Runs x.load (lefts pre) loaded) (hpre : ∀ g ∈ submissions (rights pre), g.IsFor id) :
    (((simulatedWorld resolver).after s (both pre)).state.1.isPublished id = true) ↔
      ∃ g ∈ submissions (rights pre), g ≠ Publish.checkGraph id := by
  have hmem : ∀ g, g ∈ submissions (both pre) ↔ g ∈ submissions (rights pre) := by
    intro g
    have hnone : g ∉ submissions (lefts pre) := by simp [submissions_load hload]
    rw [mem_submissions] at hnone
    simp only [mem_submissions, mem_both]
    grind
  have hall : ∀ g ∈ submissions (both pre), g.IsFor id := fun g hg => hpre g ((hmem g).1 hg)
  rw [SimulatedEngine.isPublished, List.contains_iff_mem, (after_agrees s _).volume,
    SimulatedEngine.mem_volume_submitAll hs hall]
  simp [hid, hmem]

/-- The check is answered for the moment at which it is submitted. -/
theorem check_decides {load rest : List Exchange}
    (hr : r.IsFor id) (ho : x.options.overwrite = false) (hs : s.state.1.expectations = [])
    (hid : id ∉ s.state.1.volume) (hdashed : ∀ z ∈ both ts, z.IsDashed)
    (hright : ∀ g ∈ submissions (rights ts), g.IsFor id) (hown : DropsOwn (rights ts))
    (h : Interleaves (simulatedWorld resolver) (x.submit (looks + 1)) e s ts out out')
    (hsplit : lefts ts = load ++ rest) (hload : Runs x.load load (.done r))
    (hstart : Runs (Recipe.start (looks + 1) x.config x.options r) rest out) :
    ∃ pre a post, ts = pre ++ .inl ⟨.submit (Publish.checkGraph id) x.config, a⟩ :: post ∧
      lefts pre = load ∧ ∀ es tail b, rest = es ++ tail →
        Runs (Publish.isBlocked (looks + 1) x.config x.options.poll x.options.overwrite r) es b →
          ∃ blocked, b = .done blocked ∧
            (blocked = true ↔ ∃ g ∈ submissions (rights pre), g ≠ Publish.checkGraph id) := by
  rw [Recipe.start, ho, Recipe.isBlocked_of_isFor hr] at hstart
  obtain ⟨a, rest, rfl, -⟩ := runs_ask.1 hstart
  obtain ⟨pre, post, rfl, rfl, rfl⟩ := lefts_eq_append_cons hsplit
  refine ⟨pre, a, post, rfl, rfl, ?_⟩
  intro es tail b hes hgate
  rw [ho, Recipe.isBlocked_of_isFor hr] at hgate
  obtain ⟨name, rfl, hseen⟩ := h.seen hs hdashed hown rfl
  obtain ⟨a', es, rfl, -⟩ := runs_ask.1 hgate
  obtain ⟨hhead, htail⟩ := List.cons.inj hes
  cases hhead
  rw [htail] at hseen
  refine ⟨_, Publish.isPublished_seen hgate hseen.of_append, isPublished_after hs hid hload ?_⟩
  exact fun g hg => hright g (by simp [hg])

theorem decided_of_interleaves (hx : Recipe.ofDirectory x.files x.dir = .ok r) (hr : r.IsFor id)
    (ho : x.options.overwrite = false) (hs : s.state.1.expectations = [])
    (hid : id ∉ s.state.1.volume) (hright : ∀ g ∈ submissions (rights ts), g.IsFor id)
    (hown : DropsOwn (rights ts))
    (h : Interleaves (simulatedWorld resolver) (x.submit (looks + 1)) e s ts out out') :
    x.Decided id ts out := by
  have hleft := isFor_of_submit hx hr ho h.left
  have hdashed : ∀ z ∈ both ts, z.IsDashed := by
    intro z hz g hg
    rcases mem_both.1 hz with hz | hz
    · exact (hleft g (mem_submissions.2 ⟨z, hz, hg⟩)).isDashed
    · exact (hright g (mem_submissions.2 ⟨z, hz, hg⟩)).isDashed
  rcases runs_bind.1 h.left with ⟨loaded, load, rest, hsplit, hload, hstart⟩ | ⟨f, rfl, hload⟩ |
    ⟨rfl, hload⟩
  · have hfor := isFor_of_load hx hr hload
    obtain ⟨pre, a, post, hts, rfl, hblocked⟩ :=
      check_decides hfor ho hs hid hdashed hright hown h hsplit hload hstart
    have hgate : ∀ {es : List Exchange} {b : Outcome Bool}, Runs (Publish.isBlocked (looks + 1)
        x.config x.options.poll x.options.overwrite loaded) es b →
          submissions es = [Publish.checkGraph id] := by
      intro es b hes
      rw [Publish.isBlocked_submissions hes, ho, Recipe.gate_of_isFor hfor]
    have hsub : submissions (lefts ts) = submissions rest := by
      rw [hsplit, submissions_append, submissions_load hload, List.nil_append]
    cases Recipe.started_of_runs hstart with
    | @launched gated launched _ g hgated hg hlaunch =>
      obtain ⟨blocked, hdone, hearly⟩ := hblocked gated launched _ rfl hgated
      cases hdone
      obtain ⟨a', rest, rfl, -⟩ := Recipe.runs_launch hlaunch
      obtain ⟨pre', post', hts', -, hrest⟩ :=
        lefts_eq_append_cons (hsplit.trans (List.append_assoc _ _ _).symm)
      obtain ⟨name, rfl, hseen⟩ := h.seen hs hdashed hown hts'
      rw [hrest] at hseen
      obtain rfl := Recipe.launch_seen hlaunch hseen
      refine .granted hts (by simpa using hearly) hload hg ?_
      rw [hsub, submissions_append, hgate hgated, Recipe.submissions_launch hlaunch]
      rfl
    | uncompiled hgated hf =>
      obtain ⟨blocked, hdone, hearly⟩ := hblocked rest [] _ (by simp) hgated
      cases hdone
      exact .uncompiled hts (by simpa using hearly) hload hf (hsub.trans (hgate hgated))
    | blocked hgated =>
      obtain ⟨blocked, hdone, hlate⟩ := hblocked rest [] _ (by simp) hgated
      cases hdone
      obtain ⟨rfl, -⟩ := hfor
      exact .refused hts (hlate.1 rfl) (hsub.trans (hgate hgated))
    | failed hgated =>
      obtain ⟨blocked, hdone, -⟩ := hblocked rest [] _ (by simp) hgated
      cases hdone
    | stalled hgated =>
      obtain ⟨blocked, hdone, -⟩ := hblocked rest [] _ (by simp) hgated
      cases hdone
  · exact .unloaded hload
  · exact absurd rfl (Recipe.loadResolved_halts.of_runs hload)

/-- In every order of what two runs for one directory ask, each run is decided by what the other
one has submitted before its check. What the other one submits later does not hold it up, so both
submit their graph only if both checks come first. -/
theorem concurrent_decided {looks' : Nat} {out' : Outcome String} (hlooks : 0 < looks)
    (hlooks' : 0 < looks') (hx : Recipe.ofDirectory x.files x.dir = .ok r) (hr : r.IsFor id)
    (hxo : x.options.overwrite = false) (hy : Recipe.ofDirectory y.files y.dir = .ok r')
    (hr' : r'.IsFor id) (hyo : y.options.overwrite = false) (hs : s.state.1.expectations = [])
    (hid : id ∉ s.state.1.volume)
    (h : Interleaves (simulatedWorld resolver) (x.submit looks) (y.submit looks') s ts out out') :
    x.Decided id ts out ∧ y.Decided id (Turn.swap ts) out' ∧
      ((∃ g ∈ submissions (lefts ts), g ≠ Publish.checkGraph id) →
        (∃ g ∈ submissions (rights ts), g ≠ Publish.checkGraph id) →
          ChecksFirst id ts ∧ ChecksFirst id (Turn.swap ts)) := by
  obtain ⟨looks, rfl⟩ := Nat.exists_eq_add_one_of_ne_zero hlooks.ne'
  obtain ⟨looks', rfl⟩ := Nat.exists_eq_add_one_of_ne_zero hlooks'.ne'
  have hnamed := h.isNamed
  have hleft := isFor_of_submit hx hr hxo h.left
  have hright := isFor_of_submit hy hr' hyo h.right
  have hown : DropsOwn (lefts ts) :=
    Recipe.dropsOwn_submit h.left hxo fun z hz => hnamed z (mem_both.2 (.inl hz))
  have hown' : DropsOwn (rights ts) :=
    Recipe.dropsOwn_submit h.right hyo fun z hz => hnamed z (mem_both.2 (.inr hz))
  rw [← rights_swap] at hleft hown
  have hfirst := decided_of_interleaves hx hr hxo hs hid hright hown' h
  have hsecond := decided_of_interleaves hy hr' hyo hs hid hleft hown h.swap
  refine ⟨hfirst, hsecond, fun hg hg' => ⟨hfirst.checksFirst hg, hsecond.checksFirst ?_⟩⟩
  rwa [lefts_swap]

/-- An engine that has not been called. -/
def idle : Clocked (SimulatedEngine × Unit) := ⟨({}, ()), ⟨0⟩⟩

theorem copies_submit : copies.submit 1 = Recipe.start 1 {} {} Recipe.copied :=
  Recipe.submit_eq_start (Recipe.validate_eq_ok Recipe.validate_copying).1 rfl

/-- The second run comes when the first one has ended. -/
theorem concurrent_decided_copies :
    Recipe.copied.IsFor "r" ∧ "r" ∉ idle.state.1.volume ∧
      ∃ ts, Interleaves (simulatedWorld (.ofTable [])) (copies.submit 1) (copies.submit 1) idle ts
        (.done "r-shell-00002") (.failed (.published "r")) ∧
      copies.Decided "r" ts (.done "r-shell-00002") ∧
      copies.Decided "r" (Turn.swap ts) (.failed (.published "r")) := by
  have hfor : Recipe.copied.IsFor "r" := ⟨rfl, rfl, _, rfl⟩
  have hfound := (Recipe.validate_eq_ok Recipe.validate_copying).1
  have h := race_interleaves (simulatedWorld (.ofTable [])) [] (copies.submit 1)
    (copies.submit 1) idle
  have hends : (race (simulatedWorld (.ofTable [])) [] (copies.submit 1) (copies.submit 1)
      idle).2 = (.done "r-shell-00002", .failed (.published "r")) := by
    rw [copies_submit]
    decide +kernel
  rw [hends] at h
  obtain ⟨hfirst, hsecond, -⟩ := concurrent_decided (x := copies) (y := copies) Nat.one_pos
    Nat.one_pos hfound hfor rfl hfound hfor rfl rfl (by decide) h
  exact ⟨hfor, by decide, _, h, hfirst, hsecond⟩

/-- Both runs submit their graph if both checks come first: nothing is held in between. -/
theorem concurrent_both_submit :
    ∃ g ts, Recipe.copied.compile = .ok g ∧ idle.state.1.volume = [] ∧
      Interleaves (simulatedWorld (.ofTable [])) (copies.submit 1) (copies.submit 1) idle ts
        (.done "r-shell-00003") (.done "r-shell-00004") ∧
      g ∈ submissions (lefts ts) ∧ g ∈ submissions (rights ts) := by
  obtain ⟨hfound, hcompile⟩ := Recipe.validate_eq_ok Recipe.validate_copying
  obtain ⟨g, hg⟩ := hcompile rfl
  -- Each run asks five times until its check is answered.
  have h := race_interleaves (simulatedWorld (.ofTable []))
    (List.replicate 5 true ++ List.replicate 5 false) (copies.submit 1) (copies.submit 1) idle
  generalize hrace : race (simulatedWorld (.ofTable []))
    (List.replicate 5 true ++ List.replicate 5 false) (copies.submit 1) (copies.submit 1) idle =
      raced at h
  have hall : raced.2 = (.done "r-shell-00003", .done "r-shell-00004") ∧
      (∀ g ∈ Recipe.copied.compile.toOption, g ∈ submissions (lefts raced.1)) ∧
        ∀ g ∈ Recipe.copied.compile.toOption, g ∈ submissions (rights raced.1) := by
    rw [← hrace, copies_submit]
    decide +kernel
  obtain ⟨hends, hleft, hright⟩ := hall
  rw [hends] at h
  rw [hg] at hleft hright
  exact ⟨g, raced.1, hg, rfl, h, hleft g rfl, hright g rfl⟩

end Call

end RecipeFlow
