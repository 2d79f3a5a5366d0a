import RecipeFlow.Proofs.Compile.Links
import RecipeFlow.Proofs.Engine.Document

/-! Manifests that are closed: all that they refer to is there, and all that is asked for is
supplied. -/
namespace RecipeFlow.Manifest

open RecipeFlow.Graph

variable {config : EngineConfig} {g : Graph} {t t' : Task} {doc u : Json}

/-- The arguments of a task of the entry point are the inputs of a template. -/
structure Supplies (t u : Json) : Prop where
  artifacts : ∀ n ∈ t.names ["arguments", "artifacts"], n ∈ u.names ["inputs", "artifacts"]
  parameters : ∀ n ∈ t.names ["arguments", "parameters"], n ∈ u.names ["inputs", "parameters"]
  /-- An artifact that is not taken from a URL is supplied once. -/
  eachArtifact : ∀ a ∈ u.items ["inputs", "artifacts"], a.get? "http" = none →
    (t.names ["arguments", "artifacts"]).count (a.text? "name") = 1
  eachParameter : ∀ n ∈ u.names ["inputs", "parameters"],
    (t.names ["arguments", "parameters"]).count n = 1

/-- A document without loose ends. -/
structure IsClosed (doc : Json) : Prop where
  named : ∀ u ∈ templatesOf doc, (u.text? "name").isSome
  apart : ((templatesOf doc).map (·.text? "name")).Nodup
  entry : some entrypoint ∈ (templatesOf doc).map (·.text? "name")
  runs : ∀ t ∈ tasksOf doc, t.text? "template" ∈ (templatesOf doc).map (·.text? "name")
  /-- But for the entry point each template is run by one task. -/
  used : ∀ u ∈ templatesOf doc, u.text? "name" ≠ some entrypoint →
    ((tasksOf doc).map (·.text? "template")).count (u.text? "name") = 1
  waits : ∀ t ∈ tasksOf doc, ∀ d ∈ t.items ["dependencies"],
    ∃ n, d = .str n ∧ some n ∈ (tasksOf doc).map (·.text? "name")
  /-- An artifact is taken from a task that is waited for, and whose template declares it. -/
  takes : ∀ t ∈ tasksOf doc, ∀ a ∈ t.items ["arguments", "artifacts"], ∃ s n x,
    a.text? "from" = some s ∧ readReference s = some (n, ".outputs.artifacts." ++ x) ∧
      .str n ∈ t.items ["dependencies"] ∧ ∃ p ∈ tasksOf doc, p.text? "name" = some n ∧
        ∃ u ∈ templatesOf doc, u.text? "name" = p.text? "template" ∧
          some x ∈ u.names ["outputs", "artifacts"]
  repeats : ∀ t ∈ tasksOf doc, ∀ v, t.get? "withParam" = some v → ∃ s n, v = .str s ∧
    readReference s = some (n, ".outputs.result") ∧ .str n ∈ t.items ["dependencies"] ∧
      some n ∈ (tasksOf doc).map (·.text? "name")
  supplied : ∀ t ∈ tasksOf doc, ∀ u ∈ templatesOf doc, u.text? "name" = t.text? "template" →
    Supplies t u
  env : ∀ u ∈ templatesOf doc, (u.names ["container", "env"]).Nodup
  mounts : ∀ u ∈ templatesOf doc,
    ((u.items ["container", "volumeMounts"]).map (·.text? "mountPath")).Nodup
  volumes : (doc.at? ["spec", "volumes"]).isSome ↔
    ∃ u ∈ templatesOf doc, (u.at? ["container", "volumeMounts"]).isSome

theorem nodup_some {α β : Type} {f : α → β} {xs : List α} (h : (xs.map f).Nodup) :
    (xs.map fun x => some (f x)).Nodup := by
  have hmap := List.Nodup.map (fun _ _ hab => Option.some.inj hab) h
  rwa [List.map_map] at hmap

theorem tasksOf_ofGraph (g : Graph) (config : EngineConfig) :
    tasksOf (ofGraph g config).toJson = g.tasks.map fun t => dagTaskJson (dagTask t) := by
  rw [tasksOf_toJson, ofGraph, List.map_map]
  rfl

theorem templatesOf_ofGraph (g : Graph) (config : EngineConfig) :
    templatesOf (ofGraph g config).toJson = entryJson (ofGraph g config) ::
      g.tasks.map fun t => templateJson (template config t) := by
  rw [templatesOf_toJson, ofGraph, List.map_map]
  rfl

theorem names_templatesOf (g : Graph) (config : EngineConfig) :
    (templatesOf (ofGraph g config).toJson).map (·.text? "name") =
      some entrypoint :: g.tasks.map fun t => some t.name := by
  rw [templatesOf_ofGraph, List.map_cons, entryJson_name, List.map_map]
  exact congrArg _ (List.map_congr_left fun t _ => (templateJson_reads (template config t)).1)

theorem readReference_artifact {c : Consumption} (htask : '.' ∉ c.fromTask.toList)
    (hart : '\x7d' ∉ c.artifact.toList) :
    readReference (reference ("tasks." ++ c.fromTask ++ ".outputs.artifacts." ++ c.artifact)) =
      some (c.fromTask, ".outputs.artifacts." ++ c.artifact) := by
  have hwhat : '\x7d' ∉ (".outputs.artifacts." ++ c.artifact).toList := by
    rw [String.toList_append, List.mem_append, not_or]
    exact ⟨by decide, hart⟩
  have hdot : (".outputs.artifacts." ++ c.artifact).toList.head? = some '.' := by
    rw [String.toList_append]
    rfl
  rw [String.append_assoc]
  exact readReference_reference htask hdot hwhat

theorem readReference_result {task : String} (htask : '.' ∉ task.toList) :
    readReference (reference ("tasks." ++ task ++ ".outputs.result")) =
      some (task, ".outputs.result") :=
  readReference_reference htask rfl (by decide)

/-- A linked task's arguments are its own template's inputs. -/
theorem supplies_of_isSound (h : t.IsSound) (config : EngineConfig) :
    Supplies (dagTaskJson (dagTask t)) (templateJson (template config t)) := by
  obtain ⟨-, -, -, hartifacts, hparameters, -⟩ := dagTaskJson_reads (dagTask t)
  obtain ⟨-, -, hinputs, hitems, -⟩ := templateJson_reads (template config t)
  have hargs : (dagTaskJson (dagTask t)).names ["arguments", "artifacts"] =
      (t.consumes.map fun c => some c.asInput).toList := by
    rw [Json.names, hartifacts]
    cases hc : t.consumes with
    | none => simp [dagTask, hc]
    | some c => simp [dagTask, hc, (artifactArgument_reads c).1]
  have hins : (templateJson (template config t)).names ["inputs", "artifacts"] =
      t.container.inputArtifacts.map fun a => some a.name := by
    rw [Json.names, hinputs, List.map_map]
    exact List.map_congr_left fun a _ => (inputArtifactJson_reads a).1
  have hpars : (dagTaskJson (dagTask t)).names ["arguments", "parameters"] =
      (t.fanOut.map fun _ => some itemParameter).toList := by
    rw [Json.names, hparameters]
    cases hf : t.fanOut with
    | none => simp [dagTask, hf]
    | some f => simp [dagTask, hf, itemArgument, Json.text?_mk]
  have hitem : (templateJson (template config t)).names ["inputs", "parameters"] =
      (t.fanOut.map fun _ => some itemParameter).toList := by
    rw [Json.names, hitems]
    cases hf : t.fanOut with
    | none => simp [template, hf]
    | some f => simp [template, hf, Json.text?_mk]
  refine ⟨?_, ?_, ?_, ?_⟩
  · intro n hn
    rw [hargs] at hn
    cases hc : t.consumes with
    | none => simp [hc] at hn
    | some c =>
      obtain rfl : n = some c.asInput := by simpa [hc] using hn
      have hmem : c.asInput ∈ (t.container.inputArtifacts.filter (·.url.isNone)).map
          Artifact.name := by
        rw [h.supplied, hc]
        exact List.mem_cons_self
      obtain ⟨a, ha, hname⟩ := List.mem_map.1 hmem
      rw [hins, ← hname]
      exact List.mem_map.2 ⟨a, (List.mem_filter.1 ha).1, rfl⟩
  · intro n hn
    rw [hpars] at hn
    rwa [hitem]
  · intro a ha hhttp
    rw [hinputs] at ha
    obtain ⟨b, hb, rfl⟩ := List.mem_map.1 ha
    obtain ⟨hname, hurl⟩ := inputArtifactJson_reads b
    have hnone : b.url.isNone = true := by
      rw [hhttp] at hurl
      simpa using hurl.symm
    have hmem : b.name ∈ (t.consumes.map Consumption.asInput).toList := by
      rw [← h.supplied]
      exact List.mem_map.2 ⟨b, List.mem_filter.2 ⟨hb, hnone⟩, rfl⟩
    rw [hname, hargs]
    cases hc : t.consumes with
    | none => simp [hc] at hmem
    | some c =>
      have hsame : b.name = c.asInput := by simpa [hc] using hmem
      simp [hsame]
  · intro n hn
    rw [hitem] at hn
    rw [hpars]
    cases hf : t.fanOut with
    | none => simp [hf] at hn
    | some f =>
      obtain rfl : n = some itemParameter := by simpa [hf] using hn
      simp

theorem names_env (config : EngineConfig) (t : Task) :
    (templateJson (template config t)).names ["container", "env"] =
      (t.container.env.map Prod.fst ++ (t.fanOut.map FanOut.itemEnv).toList).map some := by
  rw [Json.names, Json.items_cons, (templateJson_reads _).2.1]
  dsimp only
  rw [(containerJson_reads _).1, List.map_map]
  cases hf : t.fanOut with
  | none => simp [template, hf, Json.text?_mk]
  | some f => simp [template, hf, Json.text?_mk]

theorem paths_mounts (config : EngineConfig) (t : Task) :
    ((templateJson (template config t)).items ["container", "volumeMounts"]).map
      (·.text? "mountPath") = (t.container.mounts.map Mount.path).map some := by
  rw [Json.items_cons, (templateJson_reads _).2.1]
  dsimp only
  rw [(containerJson_reads _).2.1, List.map_map, List.map_map]
  exact List.map_congr_left fun a _ => mountJson_path a

theorem at?_mounts (config : EngineConfig) (t : Task) :
    ((templateJson (template config t)).at? ["container", "volumeMounts"]).isSome =
      !t.container.mounts.isEmpty := by
  have hmounts : ((containerJson (template config t)).get? "volumeMounts").isSome =
      !t.container.mounts.isEmpty := (containerJson_reads _).2.2
  rw [Json.at?, (templateJson_reads _).2.1, Option.bind_some, Json.at?, ← hmounts]
  cases (containerJson (template config t)).get? "volumeMounts" <;> rfl

theorem mem_templatesOf {u : Json} (hu : u ∈ templatesOf (ofGraph g config).toJson) :
    u = entryJson (ofGraph g config) ∨ ∃ t ∈ g.tasks, u = templateJson (template config t) := by
  rw [templatesOf_ofGraph, List.mem_cons] at hu
  exact hu.imp_right fun hu => (List.mem_map.1 hu).imp fun t ht => ⟨ht.1, ht.2.symm⟩

theorem mem_tasksOf {v : Json} (hv : v ∈ tasksOf (ofGraph g config).toJson) :
    ∃ t ∈ g.tasks, v = dagTaskJson (dagTask t) := by
  rw [tasksOf_ofGraph] at hv
  exact (List.mem_map.1 hv).imp fun t ht => ⟨ht.1, ht.2.symm⟩

theorem dagTask_mem (ht : t ∈ g.tasks) (config : EngineConfig) :
    dagTaskJson (dagTask t) ∈ tasksOf (ofGraph g config).toJson := by
  rw [tasksOf_ofGraph]
  exact List.mem_map.2 ⟨t, ht, rfl⟩

theorem template_mem (ht : t ∈ g.tasks) (config : EngineConfig) :
    templateJson (template config t) ∈ templatesOf (ofGraph g config).toJson := by
  rw [templatesOf_ofGraph]
  exact List.mem_cons_of_mem _ (List.mem_map.2 ⟨t, ht, rfl⟩)

theorem name_mem (ht : t ∈ g.tasks) (config : EngineConfig) :
    some t.name ∈ (tasksOf (ofGraph g config).toJson).map (·.text? "name") :=
  List.mem_map.2 ⟨_, dagTask_mem ht config, (dagTaskJson_reads (dagTask t)).1⟩

theorem takes_of_isLinked (h : IsLinked g.tasks) (ht : t ∈ g.tasks) {a : Json}
    (ha : a ∈ (dagTaskJson (dagTask t)).items ["arguments", "artifacts"]) : ∃ s n x,
      a.text? "from" = some s ∧ readReference s = some (n, ".outputs.artifacts." ++ x) ∧
        .str n ∈ (dagTaskJson (dagTask t)).items ["dependencies"] ∧
        ∃ p ∈ tasksOf (ofGraph g config).toJson, p.text? "name" = some n ∧
          ∃ u ∈ templatesOf (ofGraph g config).toJson, u.text? "name" = p.text? "template" ∧
            some x ∈ u.names ["outputs", "artifacts"] := by
  obtain ⟨-, -, hdeps, hartifacts, -, -⟩ := dagTaskJson_reads (dagTask t)
  rw [hartifacts, Option.mem_toList, Option.map_eq_some_iff] at ha
  obtain ⟨c, hc, rfl⟩ := ha
  obtain ⟨hdep, p, hp, hname, hart⟩ := h.consumes t ht c hc
  obtain ⟨hpname, hptemplate, -⟩ := dagTaskJson_reads (dagTask p)
  refine ⟨_, c.fromTask, c.artifact, (artifactArgument_reads c).2, ?_, ?_, _,
    dagTask_mem hp config, hname ▸ hpname, _, template_mem hp config, ?_, ?_⟩
  · exact readReference_artifact (hname ▸ (h.sound p hp).plain) ((h.sound t ht).closing c hc)
  · rw [hdeps]
    exact List.mem_map.2 ⟨_, hdep, rfl⟩
  · exact (templateJson_reads _).1.trans hptemplate.symm
  · obtain ⟨b, hb, hx⟩ := List.mem_map.1 hart
    rw [Json.names, (templateJson_reads _).2.2.2.2, List.map_map]
    exact List.mem_map.2 ⟨b, hb, (outputArtifactJson_name b).trans (congrArg some hx)⟩

theorem repeats_of_isLinked (h : IsLinked g.tasks) (ht : t ∈ g.tasks) {v : Json}
    (hv : (dagTaskJson (dagTask t)).get? "withParam" = some v) : ∃ s n, v = .str s ∧
      readReference s = some (n, ".outputs.result") ∧
        .str n ∈ (dagTaskJson (dagTask t)).items ["dependencies"] ∧
          some n ∈ (tasksOf (ofGraph g config).toJson).map (·.text? "name") := by
  obtain ⟨-, -, hdeps, -, -, hparam⟩ := dagTaskJson_reads (dagTask t)
  rw [hparam, Option.map_eq_some_iff] at hv
  obtain ⟨task, htask, rfl⟩ := hv
  obtain ⟨f, hf, rfl⟩ := Option.map_eq_some_iff.1 htask
  have hdep := h.repeats t ht f hf
  obtain ⟨p, hp, hname⟩ := List.mem_map.1 (h.waits t ht f.fromTask hdep)
  refine ⟨_, f.fromTask, rfl, readReference_result (hname ▸ (h.sound p hp).plain), ?_, ?_⟩
  · rw [hdeps]
    exact List.mem_map.2 ⟨_, hdep, rfl⟩
  · exact hname ▸ name_mem hp config

theorem supplies_of_isLinked (h : IsLinked g.tasks) (ht : t ∈ g.tasks) {u : Json}
    (hu : u ∈ templatesOf (ofGraph g config).toJson)
    (hname : u.text? "name" = (dagTaskJson (dagTask t)).text? "template") :
    Supplies (dagTaskJson (dagTask t)) u := by
  rw [(dagTaskJson_reads (dagTask t)).2.1] at hname
  rcases mem_templatesOf hu with rfl | ⟨t', ht', rfl⟩
  · rw [entryJson_name] at hname
    exact absurd (Option.some.inj hname).symm (h.sound t ht).apart
  · rw [(templateJson_reads _).1] at hname
    obtain rfl : t' = t := List.inj_on_of_nodup_map h.names ht' ht (Option.some.inj hname)
    exact supplies_of_isSound (h.sound t' ht) config

/-- There is a volume just where a container mounts it. -/
theorem volumes_iff (hvolume : g.usesVolume = g.tasks.any fun t => !t.container.mounts.isEmpty)
    (config : EngineConfig) : ((ofGraph g config).toJson.at? ["spec", "volumes"]).isSome ↔
      ∃ u ∈ templatesOf (ofGraph g config).toJson,
        (u.at? ["container", "volumeMounts"]).isSome := by
  have hspec : ((ofGraph g config).toJson.at? ["spec", "volumes"]).isSome = g.usesVolume := by
    rw [Json.at?, toJson_spec, Option.bind_some, Json.at?]
    have hreads := (specJson_reads (ofGraph g config)).2.2
    cases hg : g.usesVolume <;> cases hv : (specJson (ofGraph g config)).get? "volumes" <;>
      simp_all [ofGraph, Json.at?]
  rw [hspec, hvolume, List.any_eq_true]
  constructor
  · rintro ⟨t, ht, hmounts⟩
    exact ⟨_, template_mem ht config, (at?_mounts config t).trans hmounts⟩
  · rintro ⟨u, hu, hmounts⟩
    rcases mem_templatesOf hu with rfl | ⟨t, ht, rfl⟩
    · rw [entryJson_container] at hmounts
      cases hmounts
    · exact ⟨t, ht, (at?_mounts config t).symm.trans hmounts⟩

/-- A graph of linked tasks, with a volume where some task mounts it, has a closed manifest. -/
theorem isClosed_ofGraph (h : IsLinked g.tasks)
    (hvolume : g.usesVolume = g.tasks.any fun t => !t.container.mounts.isEmpty)
    (config : EngineConfig) : IsClosed (ofGraph g config).toJson where
  named u hu := by
    rcases mem_templatesOf hu with rfl | ⟨t, -, rfl⟩
    · rw [entryJson_name]
      rfl
    · rw [(templateJson_reads _).1]
      rfl
  apart := by
    rw [names_templatesOf, List.nodup_cons]
    refine ⟨?_, nodup_some h.names⟩
    intro hmem
    obtain ⟨t, ht, hname⟩ := List.mem_map.1 hmem
    exact (h.sound t ht).apart (Option.some.inj hname)
  entry := by
    rw [names_templatesOf]
    exact List.mem_cons_self
  runs v hv := by
    obtain ⟨t, ht, rfl⟩ := mem_tasksOf hv
    rw [(dagTaskJson_reads _).2.1]
    exact List.mem_map.2 ⟨_, template_mem ht config, (templateJson_reads _).1⟩
  used u hu hne := by
    rcases mem_templatesOf hu with rfl | ⟨t, ht, rfl⟩
    · exact absurd (entryJson_name _) hne
    · have htemplates : (tasksOf (ofGraph g config).toJson).map (·.text? "template") =
          g.tasks.map fun t => some t.name := by
        rw [tasksOf_ofGraph, List.map_map]
        exact List.map_congr_left fun t _ => (dagTaskJson_reads (dagTask t)).2.1
      rw [htemplates, (templateJson_reads _).1]
      exact List.count_eq_one_of_mem (nodup_some h.names) (List.mem_map.2 ⟨t, ht, rfl⟩)
  waits v hv d hd := by
    obtain ⟨t, ht, rfl⟩ := mem_tasksOf hv
    rw [(dagTaskJson_reads _).2.2.1] at hd
    obtain ⟨n, hn, rfl⟩ := List.mem_map.1 hd
    obtain ⟨p, hp, rfl⟩ := List.mem_map.1 (h.waits t ht n hn)
    exact ⟨_, rfl, name_mem hp config⟩
  takes v hv a ha := by
    obtain ⟨t, ht, rfl⟩ := mem_tasksOf hv
    exact takes_of_isLinked h ht ha
  repeats v hv w hw := by
    obtain ⟨t, ht, rfl⟩ := mem_tasksOf hv
    exact repeats_of_isLinked h ht hw
  supplied v hv u hu hname := by
    obtain ⟨t, ht, rfl⟩ := mem_tasksOf hv
    exact supplies_of_isLinked h ht hu hname
  env u hu := by
    rcases mem_templatesOf hu with rfl | ⟨t, ht, rfl⟩
    · rw [Json.names, Json.items, entryJson_container]
      exact List.nodup_nil
    · rw [names_env]
      exact List.Nodup.map (fun _ _ hab => Option.some.inj hab) (h.sound t ht).env
  mounts u hu := by
    rcases mem_templatesOf hu with rfl | ⟨t, ht, rfl⟩
    · rw [Json.items, entryJson_container]
      exact List.nodup_nil
    · rw [paths_mounts]
      exact List.Nodup.map (fun _ _ hab => Option.some.inj hab) (h.sound t ht).mounts
  volumes := volumes_iff hvolume config

end RecipeFlow.Manifest

namespace RecipeFlow.Recipe

/-- Whatever the engine's settings, the manifest of a compiled recipe is closed. -/
theorem isClosed_of_compile {r : Recipe} {g : Graph} (h : r.compile = .ok g)
    (config : EngineConfig) : Manifest.IsClosed (Manifest.ofGraph g config).toJson :=
  Manifest.isClosed_ofGraph (isLinked_of_compile h) (usesVolume_of_compile h) config

/-- A recipe that tiles the file behind a URL. -/
def tiled : Recipe where
  name := "t"
  id := "t"
  image := none
  inputs := [⟨.url, "http://n/a.gpkg", none, []⟩]
  output := .pvc
  workflow := .visualization ⟨1000, none, "\x7b\x7d"⟩
  directory := "d"

theorem isClosed_of_compile_tiled :
    ∃ g, tiled.compile = .ok g ∧ Manifest.IsClosed (Manifest.ofGraph g {}).toJson := by
  have hok : tiled.compile.toOption.isSome := by decide +kernel
  cases hg : tiled.compile with
  | error f => simp [hg, Except.toOption] at hok
  | ok g => exact ⟨g, rfl, isClosed_of_compile hg {}⟩

end RecipeFlow.Recipe
