import RecipeFlow.Proofs.Engine.Document
import RecipeFlow.Proofs.Run.Faults

/-! What is shown of a recipe without a run, and what its run posts to a server: whatever the server
answers, a run posts what is shown, behind the graphs that look for its results or clear them. -/
namespace RecipeFlow

open Dialogue

variable {α σ τ ν : Type} {c : EngineConfig} {g : Graph} {es : List Exchange} {r : Recipe}

/-! Settings and listings. -/

/-- A query that, if it goes to an engine, goes there under these settings. -/
def Query.IsUnder (c : EngineConfig) : Query → Prop
  | submit _ c' | find _ c' | delete _ c' => c' = c
  | list _ | sleep _ | clock => True

theorem Query.IsListing.isUnder {q : Query} (h : q.IsListing) : q.IsUnder c := by
  cases q with
  | list => trivial
  | submit | find | delete | sleep | clock => exact h.elim

namespace Lifecycle

variable {looks : Nat} {name : String} {o : PollOptions}

theorem isUnder_of_isLook {q : Query} (h : IsLook c name q) : q.IsUnder c := by
  cases q with
  | find n c' => exact h.2
  | sleep | clock => trivial
  | submit | delete | list => exact h.elim

theorem wait_isUnder : (wait looks c name o).AsksOnly (Query.IsUnder c) :=
  wait_asksOnly.mono fun _ => isUnder_of_isLook

theorem runToCompletion_isUnder : (runToCompletion looks c g o).AsksOnly (Query.IsUnder c) :=
  runToCompletion_asksOnly rfl fun _ _ => isUnder_of_isLook

end Lifecycle

theorem Publish.isBlocked_isUnder {looks : Nat} {o : PollOptions} {overwrite : Bool} :
    (isBlocked looks c o overwrite r).AsksOnly (Query.IsUnder c) := by
  have hdiscard : ∀ name, (discard name c).AsksOnly (Query.IsUnder c) :=
    fun _ => ⟨rfl, fun _ => trivial⟩
  unfold isBlocked
  split
  · refine asksOnly_bind ?_ fun _ => trivial
    exact asksOnly_bind Lifecycle.runToCompletion_isUnder fun e => hdiscard e.name
  · split
    · refine asksOnly_bind Lifecycle.runToCompletion_isUnder fun e => ?_
      refine asksOnly_bind (hdiscard e.name) fun _ => ?_
      split
      · trivial
      · trivial
    · trivial

/-- All that a run asks of an engine it asks under one configuration. -/
theorem Recipe.submit_isUnder {looks : Nat} {files : Files} {resolvable : Bool}
    {o : SubmitOptions} {dir : String} :
    (submit looks files resolvable c o dir).AsksOnly (Query.IsUnder c) := by
  refine asksOnly_bind (loadResolved_asksOnly.mono fun _ => Query.IsListing.isUnder) fun r => ?_
  refine asksOnly_bind Publish.isBlocked_isUnder fun b => ?_
  split
  · trivial
  · refine asksOnly_bind (asksOnly_ofExcept _) fun g => ?_
    refine asksOnly_bind (Lifecycle.submit_asksOnly rfl) fun n => ?_
    split
    · exact asksOnly_bind Lifecycle.wait_isUnder fun _ => trivial
    · trivial

/-- A world in which the files of a dataset are always the same. -/
def World.Lists (w : World σ) (listed : String → Except Fault (List DataObject)) : Prop :=
  ∀ dataset s, (w.answer (.list dataset) s).1 = listed dataset

/-- Where the files of datasets are all that is asked for, they are all that matters. -/
theorem Dialogue.run_listing {w : World σ} {w' : World τ}
    {listed : String → Except Fault (List DataObject)} (hw : w.Lists listed) (hw' : w'.Lists listed)
    {d : Dialogue α} (hd : d.AsksOnly Query.IsListing) (s : σ) (s' : τ) :
    (d.run w s).1 = (d.run w' s').1 := by
  induction d generalizing s s' with
  | done | failed | stalled => rfl
  | ask q next ih =>
    cases q with
    | list dataset =>
      simp only [run, hw dataset s, hw' dataset s']
      exact ih _ (hd.2 _) _ _
    | submit | find | delete | sleep | clock => exact hd.1.elim

theorem Dialogue.answer_of_mem_transcript {w : World σ} {d : Dialogue α} {s : σ} {q : Query}
    {a : q.Answer} (h : ⟨q, a⟩ ∈ d.transcript w s) : ∃ t, (w.answer q t).1 = a := by
  induction d generalizing s with
  | done | failed | stalled => cases h
  | ask q' next ih =>
    rcases List.mem_cons.1 h with he | h
    · cases he
      exact ⟨s, rfl⟩
    · exact ih _ h

theorem Recipe.render_asksOnly {files : Files} {resolvable : Bool} {dir : String} :
    (render files resolvable c dir).AsksOnly Query.IsListing :=
  asksOnly_bind loadResolved_asksOnly fun _ => asksOnly_bind (asksOnly_ofExcept _) fun _ => trivial

/-! What a server is posted. -/

/-- The document that a request posts. -/
def Http.Request.posted? (r : Http.Request) : Option Json :=
  match r.method with
  | .post => r.body
  | .get | .delete => none

/-- A network beside a record of all that is posted on it. -/
def Http.Network.recorded (net : Http.Network ν) : Http.Network (ν × List Json) where
  exchange r s := ((net.exchange r s.1).1, (net.exchange r s.1).2, s.2 ++ r.posted?.toList)

theorem Http.Network.send_recorded (net : Http.Network ν) (r : Http.Request) (s : ν × List Json) :
    (net.recorded.send r s).2.2 = s.2 ++ r.posted?.toList := by
  rw [send]
  split
  · next h => exact congrArg (fun p => p.2.2) h.symm
  · next h => exact congrArg (fun p => p.2.2) h.symm

namespace Server

variable {net : Http.Network ν} {resolver : Dataset.Resolver τ}

/-- What a query posts to a server, if the settings say where one is. -/
def posted? : Query → Option Json
  | .submit g c =>
    match Http.locate (workflowsUrl c) with
    | .ok _ => some (submission g c)
    | .error _ => none
  | .find .. | .delete .. | .list _ | .sleep _ | .clock => none

/-- The world of a server whose posts are recorded, and of a resolver with a state of its own. -/
abbrev recordedWorld (net : Http.Network ν) (resolver : Dataset.Resolver τ) :
    World (Clocked ((ν × List Json) × τ)) :=
  .ofParts (engine net.recorded).beside resolver.beside

theorem call_recorded (method : Http.Method) (url : String) (body : Option Json)
    (read : Url → Http.Response → Except Http.Failure α) (s : ν × List Json) :
    (call net.recorded method url body read s).2.2 = s.2 ++ match Http.locate url with
      | .ok u => (Http.Request.posted? ⟨method, u, body⟩).toList
      | .error _ => [] := by
  rw [call]
  cases Http.locate url with
  | error f => exact (List.append_nil _).symm
  | ok u => exact net.send_recorded _ s

/-- A request without a document posts nothing. -/
theorem call_unposted (method : Http.Method) (url : String)
    (read : Url → Http.Response → Except Http.Failure α) (s : ν × List Json) :
    (call net.recorded method url none read s).2.2 = s.2 := by
  rw [call_recorded]
  cases Http.locate url with
  | error f => exact List.append_nil _
  | ok u => cases method <;> exact List.append_nil _

theorem answer_recorded (q : Query) (s : Clocked ((ν × List Json) × τ)) :
    ((recordedWorld net resolver).answer q s).2.state.1.2 =
      s.state.1.2 ++ (posted? q).toList := by
  cases q with
  | submit g c =>
    simp only [World.ofParts, Engine.beside, engine, call_recorded, posted?]
    cases Http.locate (workflowsUrl c) <;> rfl
  | find n c =>
    simp only [World.ofParts, Engine.beside, engine, call_unposted]
    exact (List.append_nil _).symm
  | delete n c =>
    simp only [World.ofParts, Engine.beside, engine, call_unposted]
    exact (List.append_nil _).symm
  | list | sleep | clock => exact (List.append_nil _).symm

/-- Without a place to submit it to, no graph is taken. -/
theorem answer_unlocated {f : Http.Failure} (h : Http.locate (workflowsUrl c) = .error f)
    (g : Graph) (s : Clocked ((ν × List Json) × τ)) :
    ∃ f', ((recordedWorld net resolver).answer (.submit g c) s).1 = .error f' := by
  simp only [World.ofParts, Engine.beside, engine, call, h, readSubmitted]
  exact ⟨_, rfl⟩

theorem run_recorded (d : Dialogue α) (s : Clocked ((ν × List Json) × τ)) :
    (d.run (recordedWorld net resolver) s).2.state.1.2 = s.state.1.2 ++
      (d.transcript (recordedWorld net resolver) s).filterMap fun x => posted? x.query := by
  rw [run_state]
  generalize d.transcript (recordedWorld net resolver) s = es
  induction es generalizing s with
  | nil => exact (List.append_nil _).symm
  | cons x es ih =>
    rw [World.after_cons, ih, answer_recorded, List.append_assoc]
    refine congrArg (s.state.1.2 ++ ·) ?_
    rw [List.filterMap_cons]
    cases posted? x.query <;> rfl

/-- Where the settings say where a server is, submissions are posted under them, one by one;
elsewhere nothing is posted. -/
theorem posted_eq (h : ∀ x ∈ es, x.query.IsUnder c) :
    (es.filterMap fun x => posted? x.query) = match Http.locate (workflowsUrl c) with
      | .ok _ => (submissions es).map (submission · c)
      | .error _ => [] := by
  induction es with
  | nil => cases Http.locate (workflowsUrl c) <;> rfl
  | cons x es ih =>
    obtain ⟨hx, hes⟩ := List.forall_mem_cons.1 h
    obtain ⟨q, a⟩ := x
    rw [List.filterMap_cons, ih hes]
    cases q with
    | submit g c' =>
      obtain rfl : c' = c := hx
      rw [submissions_cons_some rfl, posted?]
      cases Http.locate (workflowsUrl c') <;> rfl
    | find | delete | list | sleep | clock => rw [submissions_cons_none rfl, posted?]

/-- The name that a posted document asks for. -/
theorem submission_generateName (g : Graph) (c : EngineConfig) :
    (submission g c).at? ["workflow", "metadata", "generateName"] =
      some (.str g.generateName) := by
  simp [submission, Json.at?, Json.get?_mk, Manifest.toJson, Manifest.ofGraph]

/-- A document that is posted to look for published data or to clear them. -/
def IsAuxiliary (c : EngineConfig) (body : Json) : Prop :=
  ∃ id, body = submission (Publish.checkGraph id) c ∨ body = submission (Publish.clearGraph id) c

theorem isAuxiliary_of_mem_gate {overwrite : Bool} (h : g ∈ Publish.gate overwrite r) :
    IsAuxiliary c (submission g c) := by
  unfold Publish.gate at h
  split at h
  · obtain rfl := List.mem_singleton.1 h
    exact ⟨r.id, .inr rfl⟩
  · split at h
    · obtain rfl := List.mem_singleton.1 h
      exact ⟨r.id, .inl rfl⟩
    · cases h

/-- What a recipe compiles to is posted as neither: it asks for another name. -/
theorem not_isAuxiliary_of_compile (h : r.compile = .ok g) : ¬ IsAuxiliary c (submission g c) := by
  have hending : ∀ g', submission g c = submission g' c →
      Publish.ending g' = ['-', 'l'] ∨ Publish.ending g' = ['-', 'n'] := by
    intro g' hg'
    have hname := submission_generateName g c
    rw [hg', submission_generateName] at hname
    rw [Publish.ending, Json.str.inj (Option.some.inj hname)]
    exact Publish.ending_of_compile h
  rintro ⟨id, hid | hid⟩
  · have he := hending _ hid
    rw [Publish.ending_checkGraph] at he
    rcases he with he | he <;> cases he
  · have he := hending _ hid
    rw [Publish.ending_clearGraph] at he
    rcases he with he | he <;> cases he

end Server

/-- What a run posts, seen from what is shown without it. -/
structure Posts (c : EngineConfig) (shown : Outcome Manifest) (out : Outcome String)
    (bodies : List Json) : Prop where
  /-- Whatever is not posted for the sake of published data is what is shown. If nothing can be
  shown, nothing of the kind is posted. -/
  only : ∀ b ∈ bodies, ¬ Server.IsAuxiliary c b →
    ∃ m, shown = .done m ∧ b = .mk [("workflow", m.toJson)]
  /-- It is posted once, and last. -/
  last : ∀ before b after, bodies = before ++ b :: after → ¬ Server.IsAuxiliary c b →
    (∀ b' ∈ before, Server.IsAuxiliary c b') ∧ after = []
  /-- What is shown cannot be taken for something posted for the sake of published data. -/
  distinct : ∀ m, shown = .done m → ¬ Server.IsAuxiliary c (.mk [("workflow", m.toJson)])
  /-- A run that ends well has posted it. -/
  sent : ∀ n, out = .done n → ∃ m, shown = .done m ∧ .mk [("workflow", m.toJson)] ∈ bodies

namespace Posts

variable {shown : Outcome Manifest} {out : Outcome String} {bodies : List Json}

theorem of_auxiliary (hbodies : ∀ b ∈ bodies, Server.IsAuxiliary c b)
    (hdistinct : ∀ m, shown = .done m → ¬ Server.IsAuxiliary c (.mk [("workflow", m.toJson)]))
    (hout : ∀ n, out ≠ .done n) : Posts c shown out bodies where
  only b hb hnot := absurd (hbodies b hb) hnot
  last before b after hsplit hnot := absurd (hbodies b (by simp [hsplit])) hnot
  distinct := hdistinct
  sent n hn := absurd hn (hout n)

theorem of_launch (hbodies : ∀ b ∈ bodies, Server.IsAuxiliary c b) (hg : r.compile = .ok g) :
    Posts c (.done (.ofGraph g c)) out (bodies ++ [Server.submission g c]) where
  only b hb hnot := by
    rcases List.mem_append.1 hb with hb | hb
    · exact absurd (hbodies b hb) hnot
    · exact ⟨_, rfl, List.mem_singleton.1 hb⟩
  last before b after hsplit hnot := by
    rcases List.eq_nil_or_concat after with rfl | ⟨after, b', rfl⟩
    · obtain ⟨rfl, -⟩ := List.append_inj' hsplit rfl
      exact ⟨hbodies, rfl⟩
    · -- Then it is among those before the last one.
      rw [List.concat_eq_append, ← List.cons_append, ← List.append_assoc] at hsplit
      obtain ⟨rfl, -⟩ := List.append_inj' hsplit rfl
      exact absurd (hbodies b (by simp)) hnot
  distinct m hm := by
    cases hm
    exact Server.not_isAuxiliary_of_compile hg
  sent n _ := ⟨_, rfl, by simp [Server.submission]⟩

end Posts

namespace Recipe

variable {looks : Nat} {o : SubmitOptions} {out : Outcome String} {files : Files}
  {resolvable : Bool} {dir : String}

/-- What is shown of a loaded recipe. -/
def shown (c : EngineConfig) (r : Recipe) : Outcome Manifest :=
  match r.compile with
  | .ok g => .done (.ofGraph g c)
  | .error f => .failed f

theorem shown_distinct (m : Manifest) (h : r.shown c = .done m) :
    ¬ Server.IsAuxiliary c (.mk [("workflow", m.toJson)]) := by
  unfold shown at h
  cases hg : r.compile with
  | ok g =>
    rw [hg] at h
    cases h
    exact Server.not_isAuxiliary_of_compile hg
  | error f =>
    rw [hg] at h
    cases h

theorem gate_isAuxiliary (overwrite : Bool) (r : Recipe) :
    ∀ b ∈ (Publish.gate overwrite r).map (Server.submission · c), Server.IsAuxiliary c b :=
  List.forall_mem_map.2 fun _ => Server.isAuxiliary_of_mem_gate

/-- A launch that ends well was told the name of what it submitted. -/
theorem launch_named {n : String} (h : Runs (launch looks c o g) es (.done n)) :
    ∃ name, ⟨.submit g c, .ok (some name)⟩ ∈ es := by
  obtain ⟨name, pre, post, rfl, hpre, -⟩ := runs_bind_done.1 h
  obtain ⟨a, rfl, ha⟩ := Lifecycle.runs_submit hpre
  obtain rfl := ha name rfl
  exact ⟨name, List.mem_append_left _ (List.mem_singleton.2 rfl)⟩

/-- A loaded recipe's run posts what is shown of it. -/
theorem posts_of_started (h : Started looks c o r es out) :
    Posts c (r.shown c) out ((submissions es).map (Server.submission · c)) := by
  cases h with
  | @launched pre post out g hgate hg hlaunch =>
    obtain ⟨a, rest, rfl, hrest⟩ := runs_launch hlaunch
    rw [submissions_append, submissions_cons_some rfl, hrest, Publish.isBlocked_submissions hgate,
      List.map_append, shown, hg]
    exact .of_launch (gate_isAuxiliary _ r) hg
  | uncompiled hgate hg =>
    rw [Publish.isBlocked_submissions hgate]
    exact .of_auxiliary (gate_isAuxiliary _ r) shown_distinct nofun
  | blocked hgate =>
    rw [Publish.isBlocked_submissions hgate]
    exact .of_auxiliary (gate_isAuxiliary _ r) shown_distinct nofun
  | failed hgate =>
    rw [Publish.isBlocked_submissions hgate]
    exact .of_auxiliary (gate_isAuxiliary _ r) shown_distinct nofun
  | stalled hgate =>
    rw [Publish.isBlocked_submissions hgate]
    exact .of_auxiliary (gate_isAuxiliary _ r) shown_distinct nofun

/-- Rendering goes on from the recipe that a run goes on from. -/
theorem run_render (w : World σ) (s : σ) : ((render files resolvable c dir).run w s).1 =
    match ((loadResolved files resolvable dir).run w s).1 with
      | .done r => r.shown c
      | .failed f => .failed f
      | .stalled => .stalled := by
  rw [render, run_bind]
  cases ((loadResolved files resolvable dir).run w s).1 with
  | done r =>
    simp only [shown]
    cases r.compile <;> rfl
  | failed | stalled => rfl

/-- What a run submits is what rendering shows in the same world. -/
theorem posts_submissions (w : World σ) (s : σ) :
    Posts c ((render files resolvable c dir).run w s).1
      ((submit looks files resolvable c o dir).run w s).1
      ((submissions ((submit looks files resolvable c o dir).transcript w s)).map
        (Server.submission · c)) := by
  have hlisting := loadResolved_asksOnly.of_runs
    (runs_transcript w (loadResolved files resolvable dir) s)
  rw [run_render, submit, transcript_bind, run_bind, submissions_append,
    submissions_listing hlisting, List.nil_append]
  cases ((loadResolved files resolvable dir).run w s).1 with
  | done r => exact posts_of_started (started_of_runs (runs_transcript w (start looks c o r) _))
  | failed | stalled => exact .of_auxiliary (List.forall_mem_nil _) (by simp) (by simp)

/-- A run that ends well was told the name of a graph. -/
theorem submit_named {n : String} (h : Runs (submit looks files resolvable c o dir) es (.done n)) :
    ∃ g name, ⟨.submit g c, .ok (some name)⟩ ∈ es := by
  obtain ⟨r, pre, post, rfl, -, hstart⟩ := runs_bind_done.1 h
  cases started_of_runs hstart with
  | launched _ _ hlaunch =>
    obtain ⟨name, hmem⟩ := launch_named hlaunch
    exact ⟨_, name, List.mem_append_right _ (List.mem_append_right _ hmem)⟩

/-- Whatever a server answers, a run posts what is shown of its recipe, or nothing of the kind. -/
theorem submit_posts (net : Http.Network ν) (resolver : Dataset.Resolver τ) (w : World σ)
    (listed : String → Except Fault (List DataObject))
    (hresolver : ∀ dataset t, (resolver.list dataset t).1 = listed dataset) (hw : w.Lists listed)
    (files : Files) (resolvable : Bool) (dir : String) (looks : Nat) (c : EngineConfig)
    (o : SubmitOptions) (s : Clocked ((ν × List Json) × τ)) (t : σ) :
    ∃ bodies, ((submit looks files resolvable c o dir).run
        (Server.recordedWorld net resolver) s).2.state.1.2 = s.state.1.2 ++ bodies ∧
      Posts c ((render files resolvable c dir).run w t).1
        ((submit looks files resolvable c o dir).run (Server.recordedWorld net resolver) s).1
        bodies := by
  have hlists : (Server.recordedWorld net resolver).Lists listed :=
    fun dataset s => hresolver dataset s.state.2
  have hshown : ((render files resolvable c dir).run w t).1 =
      ((render files resolvable c dir).run (Server.recordedWorld net resolver) s).1 :=
    run_listing hw hlists render_asksOnly t s
  have hruns := runs_transcript (Server.recordedWorld net resolver)
    (submit looks files resolvable c o dir) s
  have hposts := @posts_submissions _ c looks o files resolvable dir
    (Server.recordedWorld net resolver) s
  refine ⟨_, Server.run_recorded _ s, ?_⟩
  rw [hshown, Server.posted_eq (submit_isUnder.of_runs hruns)]
  cases hlocate : Http.locate (Server.workflowsUrl c) with
  | ok u => exact hposts
  | error f =>
    refine .of_auxiliary (List.forall_mem_nil _) hposts.distinct fun n hn => ?_
    obtain ⟨g, name, hmem⟩ := submit_named (hn ▸ hruns)
    obtain ⟨t', ht'⟩ := answer_of_mem_transcript hmem
    obtain ⟨f', hf'⟩ := @Server.answer_unlocated _ _ _ net resolver _ hlocate g t'
    cases ht'.symm.trans hf'

/-- A server with these answers. -/
def answering (vs : List Json) : Clocked ((Http.Script × List Json) × Unit) :=
  ⟨((⟨vs.map fun v => ⟨200, v.compact⟩, []⟩, []), ()), ⟨0⟩⟩

/-- It finds nothing published and names what it takes. -/
def willing : Clocked ((Http.Script × List Json) × Unit) :=
  answering [.mk [("metadata", .mk [("name", .str "check")])],
    .mk [("status", .mk [("phase", .str "Succeeded"), ("nodes", .mk [("check", .mk [
      ("displayName", .str Publish.checkName), ("outputs", .mk [("parameters", .arr [.mk [
        ("name", .str Publish.answerParameter), ("value", .str "no")]])])])])])],
    .null, .mk [("metadata", .mk [("name", .str "own")])]]

/-- Behind a check of its volume the server is posted what is shown. -/
theorem submit_posts_willing :
    ((submit 1 copying false {} {} "d").run
        (Server.recordedWorld .scripted (.ofTable [])) willing).1 = .done "own" ∧
      ∃ m, ((render copying false {} "d").run (simulatedWorld (.ofTable [])) seeded).1 = .done m ∧
        .mk [("workflow", m.toJson)] ∈ ((submit 1 copying false {} {} "d").run
          (Server.recordedWorld .scripted (.ofTable [])) willing).2.state.1.2 := by
  have hdone : ((submit 1 copying false {} {} "d").run
      (Server.recordedWorld .scripted (.ofTable [])) willing).1 = .done "own" := by
    decide +kernel
  obtain ⟨bodies, hbodies, hposts⟩ := submit_posts .scripted (.ofTable [])
    (simulatedWorld (.ofTable [])) (fun _ => .ok []) (fun _ _ => rfl) (fun _ _ => rfl) copying false
    "d" 1 {} {} willing seeded
  obtain ⟨m, hm, hmem⟩ := hposts.sent _ hdone
  refine ⟨hdone, m, hm, ?_⟩
  rw [hbodies]
  exact hmem

end Recipe

end RecipeFlow
