import Mathlib.Data.List.Nodup
import RecipeFlow.Proofs.Graph.Wiring

/-! What tasks hand on to each other: a task takes only what a task that it waits for offers. -/
namespace RecipeFlow

variable {t : Task} {ps ts : List Task} {ss pre post : List Stage} {s : Stage}

namespace Task

/-- A task takes only what some tasks offer. -/
structure FedBy (ps : List Task) (t : Task) : Prop where
  consumes : ∀ c, t.consumes = some c → ∃ u ∈ ps, u.name = c.fromTask ∧
    c.artifact ∈ u.container.outputArtifacts.map Artifact.name
  repeats : ∀ f, t.fanOut = some f → f.fromTask ∈ ps.map Task.name

/-- A task whose own parts fit together. -/
structure IsSound (t : Task) : Prop where
  /-- The name can stand in a reference, and is not the entry point's. -/
  plain : '.' ∉ t.name.toList
  apart : t.name ≠ "main"
  /-- It consumes just the artifacts that it does not take from a URL. -/
  supplied : (t.container.inputArtifacts.filter (·.url.isNone)).map Artifact.name =
    (t.consumes.map Consumption.asInput).toList
  /-- The name of what it consumes can stand at the end of a reference. -/
  closing : ∀ c, t.consumes = some c → '\x7d' ∉ c.artifact.toList
  env : (t.container.env.map Prod.fst ++ (t.fanOut.map FanOut.itemEnv).toList).Nodup
  mounts : (t.container.mounts.map Mount.path).Nodup

theorem fedBy_of_none (hc : t.consumes = none) (hf : t.fanOut = none) : t.FedBy ps := by
  constructor
  · intro c h
    cases hc.symm.trans h
  · intro f h
    cases hf.symm.trans h

end Task

namespace Graph

/-- Each stage takes only what the stage before it offers, the first what `ps` do. -/
def Fed : List Task → List Stage → Prop
  | _, [] => True
  | ps, s :: ss => (∀ t ∈ s.tasks, t.FedBy ps) ∧ Fed s.tasks ss

/-- Tasks that are linked among themselves. -/
structure IsLinked (ts : List Task) : Prop where
  names : (ts.map Task.name).Nodup
  sound : ∀ t ∈ ts, t.IsSound
  waits : ∀ t ∈ ts, ∀ d ∈ t.dependencies, d ∈ ts.map Task.name
  consumes : ∀ t ∈ ts, ∀ c, t.consumes = some c → c.fromTask ∈ t.dependencies ∧
    ∃ u ∈ ts, u.name = c.fromTask ∧ c.artifact ∈ u.container.outputArtifacts.map Artifact.name
  repeats : ∀ t ∈ ts, ∀ f, t.fanOut = some f → f.fromTask ∈ t.dependencies

/-- A wired task waits for the tasks that it is fed by. -/
theorem Fed.fedBy (h : Fed ps ss) (ht : t ∈ (wire (ps.map Task.name) ss).flatMap Stage.tasks) :
    ∃ qs, t.dependencies = qs.map Task.name ∧ t.FedBy qs ∧
      (qs = ps ∨ ∃ s ∈ ss, qs = s.tasks) := by
  induction ss generalizing ps with
  | nil => cases ht
  | cons s ss ih =>
    obtain ⟨hs, hss⟩ := h
    rw [wire, List.flatMap_cons, List.mem_append] at ht
    rcases ht with ht | ht
    · obtain ⟨u, hu, rfl⟩ := List.mem_map.1 ht
      obtain ⟨hconsumes, hrepeats⟩ := hs u hu
      exact ⟨ps, rfl, ⟨hconsumes, hrepeats⟩, .inl rfl⟩
    · obtain ⟨qs, hdeps, hfed, rfl | ⟨s', hs', rfl⟩⟩ := ih hss ht
      · exact ⟨_, hdeps, hfed, .inr ⟨s, List.mem_cons_self, rfl⟩⟩
      · exact ⟨_, hdeps, hfed, .inr ⟨s', List.mem_cons_of_mem s hs', rfl⟩⟩

/-- Wiring keeps the container of each task under its name. -/
theorem exists_wired (names : List String) {u : Task} (hu : u ∈ ss.flatMap Stage.tasks) :
    ∃ t ∈ (wire names ss).flatMap Stage.tasks, t.name = u.name ∧ t.container = u.container := by
  have hmap : ((wire names ss).flatMap Stage.tasks).map (fun t => (t.name, t.container)) =
      (ss.flatMap Stage.tasks).map fun t => (t.name, t.container) :=
    map_flatMap_wire _ fun _ _ => rfl
  have hmem : (u.name, u.container) ∈ (ss.flatMap Stage.tasks).map fun t => (t.name, t.container) :=
    List.mem_map.2 ⟨u, hu, rfl⟩
  rw [← hmap] at hmem
  obtain ⟨t, ht, he⟩ := List.mem_map.1 hmem
  obtain ⟨hname, hcontainer⟩ := Prod.mk.inj he
  exact ⟨t, ht, hname, hcontainer⟩

/-- A wired task is a task of a stage but for what it waits for. -/
theorem of_wired (names : List String) (ht : t ∈ (wire names ss).flatMap Stage.tasks) :
    ∃ u ∈ ss.flatMap Stage.tasks, t = { u with dependencies := t.dependencies } := by
  obtain ⟨pre, s, post, rfl, u, hu, rfl⟩ := mem_wire ht
  exact ⟨u, List.mem_flatMap.2 ⟨s, by simp, hu⟩, rfl⟩

/-- Where names are apart, a name leads to its task. -/
theorem task?_eq_some {g : Graph} (h : (g.tasks.map Task.name).Nodup) (ht : t ∈ g.tasks) :
    g.task? t.name = some t := by
  cases hfind : g.task? t.name with
  | none => exact absurd (List.find?_eq_none.1 hfind t ht) (by simp)
  | some u =>
    have hname : u.name = t.name := by simpa using List.find?_some hfind
    rw [List.inj_on_of_nodup_map h (List.mem_of_find?_eq_some hfind) ht hname]

/-- A task of a graph has the name and the container of a planned one. -/
theorem exists_planned {g : Graph} (h : g.stages = []) (ht : t ∈ (g.appendAll ss).tasks) :
    ∃ u ∈ ss.flatMap Stage.tasks, u.name = t.name ∧ u.container = t.container := by
  rw [tasks_appendAll h] at ht
  obtain ⟨u, hu, he⟩ := of_wired [] ht
  exact ⟨u, hu, by rw [he], by rw [he]⟩

/-- A planned task is found under its name, with its container, if no other has this name. -/
theorem exists_found {g : Graph} {u : Task} (h : g.stages = [])
    (hnames : ((ss.flatMap Stage.tasks).map Task.name).Nodup)
    (hu : u ∈ ss.flatMap Stage.tasks) :
    ∃ t, (g.appendAll ss).task? u.name = some t ∧ t.container = u.container := by
  obtain ⟨t, ht, hname, hcontainer⟩ := exists_wired [] hu
  rw [← tasks_appendAll h] at ht
  rw [← names_appendAll h] at hnames
  refine ⟨t, ?_, hcontainer⟩
  rw [← hname]
  exact task?_eq_some hnames ht

/-- Stages that are fed in turn make a graph whose tasks are linked. -/
theorem isLinked_wire (hfed : Fed [] ss) (hsound : ∀ t ∈ ss.flatMap Stage.tasks, t.IsSound)
    (hnames : ((ss.flatMap Stage.tasks).map Task.name).Nodup) :
    IsLinked ((wire [] ss).flatMap Stage.tasks) := by
  have hname : ((wire [] ss).flatMap Stage.tasks).map Task.name =
      (ss.flatMap Stage.tasks).map Task.name := map_flatMap_wire Task.name fun _ _ => rfl
  have hstage : ∀ {qs : List Task}, (qs = [] ∨ ∃ s ∈ ss, qs = s.tasks) →
      ∀ u ∈ qs, u ∈ ss.flatMap Stage.tasks := by
    rintro qs (rfl | ⟨s, hs, rfl⟩) u hu
    · cases hu
    · exact List.mem_flatMap.2 ⟨s, hs, hu⟩
  refine ⟨hname ▸ hnames, ?_, ?_, ?_, ?_⟩
  · intro t ht
    obtain ⟨u, hu, he⟩ := of_wired [] ht
    obtain ⟨hplain, hapart, hsupplied, hclosing, henv, hmounts⟩ := hsound u hu
    rw [he]
    exact ⟨hplain, hapart, hsupplied, hclosing, henv, hmounts⟩
  · intro t ht d hd
    obtain ⟨qs, hdeps, -, hqs⟩ := hfed.fedBy ht
    rw [hdeps] at hd
    obtain ⟨u, hu, rfl⟩ := List.mem_map.1 hd
    exact hname ▸ List.mem_map.2 ⟨u, hstage hqs u hu, rfl⟩
  · intro t ht c hc
    obtain ⟨qs, hdeps, hfedBy, hqs⟩ := hfed.fedBy ht
    obtain ⟨u, hu, hfrom, hart⟩ := hfedBy.consumes c hc
    obtain ⟨u', hu', hn, hcontainer⟩ := exists_wired [] (hstage hqs u hu)
    refine ⟨?_, u', hu', hn.trans hfrom, hcontainer ▸ hart⟩
    rw [hdeps, ← hfrom]
    exact List.mem_map.2 ⟨u, hu, rfl⟩
  · intro t ht f hf
    obtain ⟨qs, hdeps, hfedBy, -⟩ := hfed.fedBy ht
    rw [hdeps]
    exact hfedBy.repeats f hf

end Graph

end RecipeFlow
