import Mathlib.Data.List.Basic
import RecipeFlow.Engine.Manifest
import RecipeFlow.Proofs.Json.Path
import RecipeFlow.Proofs.Text.Split

/-! Reading the document of a manifest: what is found where. -/
namespace RecipeFlow.Manifest

variable {k j : String} {vs : List Json} {ms : List (String × Json)} {t : DagTask} {u : Template}
  {m : Manifest}

/-- The templates of a document. -/
def templatesOf (doc : Json) : List Json :=
  doc.items ["spec", "templates"]

/-- The tasks that the template of the entry point lists. -/
def tasksOf (doc : Json) : List Json :=
  match (templatesOf doc).find? fun u =>
      u.text? "name" = (doc.get? "spec").bind fun spec => spec.text? "entrypoint" with
  | some u => u.items ["dag", "tasks"]
  | none => []

/-- The task in a reference, and what of that task is referred to. -/
def readReference (s : String) : Option (String × String) := do
  let cs ← s.toList.dropPrefix? "\x7b\x7btasks.".toList
  let what := cs.dropWhile (· ≠ '.')
  if what.dropWhile (· ≠ '\x7d') = "\x7d\x7d".toList then
    some (String.ofList (cs.takeWhile (· ≠ '.')), String.ofList (what.takeWhile (· ≠ '\x7d')))
  else none

/-- A reference is read back if neither part holds what ends it. -/
theorem readReference_reference {task what : String} (htask : '.' ∉ task.toList)
    (hdot : what.toList.head? = some '.') (hwhat : '\x7d' ∉ what.toList) :
    readReference (reference ("tasks." ++ task ++ what)) = some (task, what) := by
  obtain ⟨cs, hcs⟩ : ∃ cs, what.toList = '.' :: cs := List.head?_eq_some_iff.1 hdot
  have hchars : (reference ("tasks." ++ task ++ what)).toList =
      "\x7b\x7btasks.".toList ++ (task.toList ++ '.' :: (cs ++ ['\x7d', '\x7d'])) := by
    simp [reference, hcs]
  obtain ⟨htake, hdrop⟩ := Text.takeWhile_ne (cs ++ ['\x7d', '\x7d']) htask
  obtain ⟨htake', hdrop'⟩ := Text.takeWhile_ne ['\x7d'] hwhat
  rw [hcs, List.cons_append] at htake' hdrop'
  rw [readReference, hchars, List.dropPrefix?_append_of_beq _ (beq_self_eq_true _)]
  simp only [Option.bind_eq_bind, Option.bind_some]
  rw [htake, hdrop, htake', hdrop', if_pos (by decide), String.ofList_toList, ← hcs,
    String.ofList_toList]

theorem lastValue?_unlessEmpty : Table.lastValue? k (unlessEmpty j vs) =
    if k = j ∧ vs ≠ [] then some (.arr vs) else none := by
  cases vs with
  | nil => simp [unlessEmpty]
  | cons v vs => simp [unlessEmpty]

theorem lastValue?_unlessBare : Table.lastValue? k (unlessBare j ms) =
    if k = j ∧ ms ≠ [] then some (.mk ms) else none := by
  cases ms with
  | nil => simp [unlessBare]
  | cons p ms => simp [unlessBare]

/-- A list that is left out when it is empty is read back as it was. -/
theorem items_unlessEmpty {v : Json} (h : v.get? k = Table.lastValue? k (unlessEmpty k vs)) :
    v.items [k] = vs := by
  rw [Json.items_cons, h, lastValue?_unlessEmpty]
  cases vs with
  | nil => simp
  | cons w vs => simp

/-- So is what is below an object that is left out when it is empty. -/
theorem items_unlessBare {v : Json} (h : v.get? k = Table.lastValue? k (unlessBare k ms))
    (path : List String) : v.items (k :: j :: path) = (Json.mk ms).items (j :: path) := by
  rw [Json.items_cons, h, lastValue?_unlessBare]
  cases ms with
  | nil =>
    simp only [ne_eq, not_true_eq_false, and_false, if_false]
    rfl
  | cons p ms => simp

/-- The argument that supplies what a task consumes. -/
def artifactArgument (c : Consumption) : Json :=
  .mk [("name", .str c.asInput), ("from", .str (reference
    ("tasks." ++ c.fromTask ++ ".outputs.artifacts." ++ c.artifact)))]

/-- The argument that supplies the item of a repeated task. -/
def itemArgument : Json :=
  .mk [("name", .str itemParameter), ("value", .str (reference "item"))]

/-- What is found in the document of a task of the entry point. -/
theorem dagTaskJson_reads (t : DagTask) :
    (dagTaskJson t).text? "name" = some t.name ∧
    (dagTaskJson t).text? "template" = some t.template ∧
    (dagTaskJson t).items ["dependencies"] = t.dependencies.map .str ∧
    (dagTaskJson t).items ["arguments", "artifacts"] = (t.consumes.map artifactArgument).toList ∧
    (dagTaskJson t).items ["arguments", "parameters"] =
      (t.repeatedOver.map fun _ => itemArgument).toList ∧
    (dagTaskJson t).get? "withParam" = t.repeatedOver.map fun task =>
      .str (reference ("tasks." ++ task ++ ".outputs.result")) := by
  obtain ⟨name, template, dependencies, consumes, repeatedOver⟩ := t
  have hdeps : (dagTaskJson ⟨name, template, dependencies, consumes, repeatedOver⟩).items
      ["dependencies"] = dependencies.map .str := by
    apply items_unlessEmpty
    cases consumes <;> cases repeatedOver <;>
      simp [dagTaskJson, Json.get?_mk, lastValue?_unlessEmpty, argumentsJson,
        lastValue?_unlessBare]
  refine ⟨?_, ?_, hdeps, ?_, ?_, ?_⟩ <;> cases consumes <;> cases repeatedOver <;>
    simp [dagTaskJson, Json.text?_mk, Json.get?_mk, lastValue?_unlessEmpty, argumentsJson,
      lastValue?_unlessBare, Json.items_cons, artifactArgument, itemArgument]

/-- What is found in the document of a template. -/
theorem templateJson_reads (u : Template) :
    (templateJson u).text? "name" = some u.name ∧
    (templateJson u).get? "container" = some (containerJson u) ∧
    (templateJson u).items ["inputs", "artifacts"] = u.inputArtifacts.map inputArtifactJson ∧
    (templateJson u).items ["inputs", "parameters"] =
      u.inputParameters.map (fun n => .mk [("name", .str n)]) ∧
    (templateJson u).items ["outputs", "artifacts"] =
      u.outputArtifacts.map outputArtifactJson := by
  have hinputs : (templateJson u).get? "inputs" = Table.lastValue? "inputs" (unlessBare "inputs"
      (unlessEmpty "artifacts" (u.inputArtifacts.map inputArtifactJson) ++
        unlessEmpty "parameters" (u.inputParameters.map fun n => .mk [("name", .str n)]))) := by
    simp [templateJson, Json.get?_mk, lastValue?_unlessBare]
  have houtputs : (templateJson u).get? "outputs" = Table.lastValue? "outputs" (unlessBare "outputs"
      (unlessEmpty "artifacts" (u.outputArtifacts.map outputArtifactJson) ++
        unlessEmpty "parameters" (u.outputParameters.map fun p =>
          .mk [("name", .str p.name), ("valueFrom", .mk [("path", .str p.path)])]))) := by
    simp [templateJson, Json.get?_mk, lastValue?_unlessBare]
  refine ⟨?_, ?_, ?_, ?_, ?_⟩
  · simp [templateJson, Json.text?_mk, lastValue?_unlessBare]
  · simp [templateJson, Json.get?_mk, lastValue?_unlessBare]
  · rw [items_unlessBare hinputs []]
    apply items_unlessEmpty
    simp [Json.get?_mk, lastValue?_unlessEmpty]
  · rw [items_unlessBare hinputs []]
    apply items_unlessEmpty
    simp [Json.get?_mk, lastValue?_unlessEmpty]
  · rw [items_unlessBare houtputs []]
    apply items_unlessEmpty
    simp [Json.get?_mk, lastValue?_unlessEmpty]

/-- What is found in the document of a container. -/
theorem containerJson_reads (u : Template) :
    (containerJson u).items ["env"] =
      u.env.map (fun (n, v) => .mk [("name", .str n), ("value", .str v)]) ∧
    (containerJson u).items ["volumeMounts"] = u.mounts.map mountJson ∧
    ((containerJson u).get? "volumeMounts").isSome = !u.mounts.isEmpty := by
  refine ⟨?_, ?_, ?_⟩
  · apply items_unlessEmpty
    simp [containerJson, Json.get?_mk, lastValue?_unlessEmpty]
  · apply items_unlessEmpty
    simp [containerJson, Json.get?_mk, lastValue?_unlessEmpty]
  · cases h : u.mounts <;> simp [containerJson, Json.get?_mk, lastValue?_unlessEmpty, h]

theorem inputArtifactJson_reads (a : Artifact) :
    (inputArtifactJson a).text? "name" = some a.name ∧
      (((inputArtifactJson a).get? "http").isSome = a.url.isSome) := by
  obtain ⟨name, path, url, archive⟩ := a
  cases url <;> simp [inputArtifactJson, Json.text?_mk, Json.get?_mk]

theorem outputArtifactJson_name (a : Artifact) :
    (outputArtifactJson a).text? "name" = some a.name := by
  obtain ⟨name, path, url, archive⟩ := a
  cases archive <;> simp [outputArtifactJson, Json.text?_mk]

theorem mountJson_path (a : Mount) : (mountJson a).text? "mountPath" = some a.path := by
  obtain ⟨path, subPath⟩ := a
  cases subPath <;> simp [mountJson, Json.text?_mk]

theorem artifactArgument_reads (c : Consumption) :
    (artifactArgument c).text? "name" = some c.asInput ∧
    (artifactArgument c).text? "from" = some (reference
      ("tasks." ++ c.fromTask ++ ".outputs.artifacts." ++ c.artifact)) := by
  simp [artifactArgument, Json.text?_mk]

/-- The document of the template that lists the tasks. -/
def entryJson (m : Manifest) : Json :=
  .mk [("name", .str entrypoint), ("dag", .mk [("tasks", .arr (m.tasks.map dagTaskJson))])]

theorem entryJson_name (m : Manifest) : (entryJson m).text? "name" = some entrypoint := by
  simp [entryJson, Json.text?_mk]

theorem entryJson_container (m : Manifest) (path : List String) :
    (entryJson m).at? ("container" :: path) = none := by
  simp [entryJson, Json.at?, Json.get?_mk]

/-- The document of what is to be run. -/
def specJson (m : Manifest) : Json :=
  .mk ([("entrypoint", .str entrypoint), ("serviceAccountName", .str m.serviceAccount),
      ("parallelism", .int m.parallelism),
      ("templates", .arr (entryJson m :: m.templates.map templateJson))] ++
    (match m.volumeClaim with
      | some c => [("volumes", .arr [.mk [("name", .str volumeName),
          ("persistentVolumeClaim", .mk [("claimName", .str c)])]])]
      | none => []))

theorem toJson_spec (m : Manifest) : m.toJson.get? "spec" = some (specJson m) := by
  rw [toJson, Json.get?_mk]
  simp only [Table.lastValue?_cons, Table.lastValue?_nil, Option.none_or, if_true, Option.some_or]
  rfl

theorem specJson_reads (m : Manifest) :
    (specJson m).text? "entrypoint" = some entrypoint ∧
    (specJson m).items ["templates"] = entryJson m :: m.templates.map templateJson ∧
    ((specJson m).get? "volumes").isSome = m.volumeClaim.isSome := by
  obtain ⟨_, _, _, _, _, _, _, volumeClaim⟩ := m
  cases volumeClaim <;>
    simp [specJson, Json.text?_mk, Json.get?_mk, Json.items_cons]

theorem templatesOf_toJson (m : Manifest) :
    templatesOf m.toJson = entryJson m :: m.templates.map templateJson := by
  rw [templatesOf, Json.items_cons, toJson_spec]
  exact (specJson_reads m).2.1

/-- The entry point is found under its name. -/
theorem tasksOf_toJson (m : Manifest) : tasksOf m.toJson = m.tasks.map dagTaskJson := by
  have hentry : ((m.toJson.get? "spec").bind fun spec => spec.text? "entrypoint") =
      some entrypoint := by
    rw [toJson_spec]
    exact (specJson_reads m).1
  rw [tasksOf, templatesOf_toJson, hentry, List.find?_cons_of_pos (by simp [entryJson_name])]
  simp [entryJson, Json.items_cons, Json.get?_mk]

end RecipeFlow.Manifest
