import RecipeFlow.Proofs.Json.Compact
import RecipeFlow.Proofs.Recipe.Prepared
import RecipeFlow.Proofs.Recipe.References
import RecipeFlow.Proofs.Shell.HereDocument
import RecipeFlow.Proofs.Volume.Locations

/-! The settings of a visualization: the script that stages them writes them as they are. -/
namespace RecipeFlow

open Text Visualization

variable {name id json source dir : String} {files : Files} {r : Recipe} {g : Graph}
  {v : Visualization} {inputs : List Input} {document : Json}

namespace Visualization

/-- The lines that come before the settings. -/
def openingLines (root : String) : List (List Char) :=
  (directories.map fun d => root ++ "/" ++ d).map (fun d => (Shell.makingLine d).toList) ++
    [(Shell.writingLine (root ++ "/" ++ "config.json")).toList]

theorem staged?_openingLines (h : Recipe.deriveId name = .ok id) :
    Shell.staged? (openingLines (rootDir id)) =
      some (directories.map fun d => rootDir id ++ "/" ++ d,
        rootDir id ++ "/" ++ "config.json") :=
  Shell.staged?_lines (isPlain_directories h) (isPlain_configFile h)

/-- The text of a document is not what its here-document ends with. -/
theorem endMark_ne_compact (document : Json) : endMark.toList ≠ document.compact.toList := by
  intro heq
  have hhead : document.compact.toList.head? = some 'E' := by
    rw [← heq]
    rfl
  exact absurd (Json.head?_compact hhead) (by decide)

/-- Settings that are the text of a document make up the only line of the here-document, and nothing
is behind it. -/
theorem hereDocument?_stageConfigScript (h : Recipe.deriveId name = .ok id)
    (hjson : json = document.compact) :
    Shell.hereDocument? endMark.toList
        (Text.split '\n' (stageConfigScript (rootDir id) json).toList) =
      some ⟨openingLines (rootDir id), [json.toList], []⟩ := by
  have hline : '\n' ∉ json.toList := by
    rw [hjson]
    exact Json.newline_notMem_compact document
  have hmark : endMark.toList ∉ [json.toList] := by
    rw [hjson, List.mem_singleton]
    exact endMark_ne_compact document
  have hlast : Text.split '\n' endMark.toList = [endMark.toList] := by decide
  rw [split_stageConfigScript h, Shell.split_line hline, hlast]
  refine Shell.hereDocument?_of_opens ?_ (Shell.opens_writingLine _) hmark
  exact List.forall_mem_map.2 fun d _ => Shell.opens_makingLine _ d

/-- The task that stages the settings is found in the graph. -/
theorem stageConfigTask_of_compile (hg : r.compile = .ok g) (hv : r.workflow = .visualization v) :
    ∃ t, g.task? stageConfigName = some t ∧
      t.container.script? = some (stageConfigScript (rootDir r.id) v.configJson) := by
  obtain ⟨ss, hplan, rfl⟩ := Recipe.compile_planned hg
  cases hplan with
  | sequential hw => cases hv.symm.trans hw
  | partitioned hw => cases hv.symm.trans hw
  | @visualization v' i rest hv' =>
    obtain rfl : v = v' := Workflow.visualization.inj (hv.symm.trans hv')
    have hmem : stageConfigTask r.id v.configJson ∈ (v.stages r i).flatMap Stage.tasks := by
      simp [stages]
    obtain ⟨t, ht, hcontainer⟩ := Graph.exists_found (g := ShellWorkflow.emptyGraph r) rfl
      (nodup_stages r v i) hmem
    refine ⟨t, ht, ?_⟩
    rw [hcontainer]
    rfl

end Visualization

namespace Recipe

/-- The settings of a loaded recipe are the text of a document. -/
theorem configured_of_ofText (h : ofText files dir source = .ok r)
    (hv : r.workflow = .visualization v) : ∃ document, v.configJson = Json.compact document ∧
      ∀ path, v.configFile = some path →
        ∃ content, files.read path = .ok content ∧ Json.parse? content = some document := by
  obtain ⟨sec, hload⟩ := exists_section_of_ofText h
  rw [hv] at hload
  cases sec with
  | shell file p =>
    obtain ⟨content, -, hw⟩ := WorkflowSection.commanded_of_load hload
    cases hw
  | visualization size file =>
    obtain ⟨v', document, hv', hjson, -, hfile⟩ := WorkflowSection.configured_of_load hload
    cases hv'
    exact ⟨document, hjson, hfile⟩

/-- Whatever document a visualization is configured with, a shell takes its text for the one line of
a here-document that ends with the script, and writes just that line to the recipe's directory. -/
theorem settings_written (h : ofText files dir source = .ok r) (hv : r.workflow = .visualization v)
    (hg : { r with inputs := inputs }.compile = .ok g) : ∃ t script d document,
      g.task? stageConfigName = some t ∧ t.container.script? = some script ∧
      Shell.hereDocument? endMark.toList (split '\n' script.toList) = some d ∧
      d.opening = openingLines (rootDir r.id) ∧
      Shell.staged? d.opening = some (directories.map fun dir => rootDir r.id ++ "/" ++ dir,
        rootDir r.id ++ "/" ++ "config.json") ∧
      d.body = [v.configJson.toList] ∧ d.text = v.configJson ++ "\n" ∧ d.rest = [] ∧
      v.configJson = Json.compact document ∧ ∀ path, v.configFile = some path →
        ∃ content, files.read path = .ok content ∧ Json.parse? content = some document := by
  obtain ⟨document, hjson, hfile⟩ := configured_of_ofText h hv
  obtain ⟨hid, -⟩ := named_of_ofText h
  obtain ⟨t, ht, hscript⟩ := stageConfigTask_of_compile hg hv
  have hread := hereDocument?_stageConfigScript hid hjson
  refine ⟨t, _, _, document, ht, hscript, hread, rfl, staged?_openingLines hid, rfl, ?_, rfl,
    hjson, hfile⟩
  simp [Shell.HereDocument.text]

/-- A recipe with settings in a file. -/
def configuring : String :=
  "name: r\ninput:\n  params:\n  - type: url\n    value: http://n/a.gpkg\n" ++
    "output:\n  type: pvc\nworkflow:\n  type: visualization\n  config_file: c.json\n"

/-- The recipe's directory with a text of settings. -/
def settingsFiles (content : String) : FileTree :=
  .directory [("d", .directory [("c.json", .file (some content))])]

/-- The recipe that is loaded with a text of settings. -/
def configured (json : String) : Recipe where
  name := "r"
  id := "r"
  image := none
  inputs := [⟨.url, "http://n/a.gpkg", none, []⟩]
  output := .pvc
  workflow := .visualization ⟨200, some "d/c.json", json⟩
  directory := "d"

/-- The text of a document whose strings hold the mark, on a line of its own as well. -/
def markedJson : String :=
  "[\"a\\nEOF\\nb\",\x7b\"EOF\":\"EOF\"\x7d]"

theorem settings_written_marked : ∃ r g,
    ofText (settingsFiles ("\n " ++ markedJson ++ "\n")).files "d" configuring = .ok r ∧
      r.compile = .ok g ∧ ∃ t script d, g.task? stageConfigName = some t ∧
        t.container.script? = some script ∧
        Shell.hereDocument? endMark.toList (split '\n' script.toList) = some d ∧
        d.text = markedJson ++ "\n" := by
  have hr : ofText (settingsFiles ("\n " ++ markedJson ++ "\n")).files "d" configuring =
      .ok (configured markedJson) := by decide +kernel
  have hok : (configured markedJson).compile.toOption.isSome := by decide +kernel
  cases hg : (configured markedJson).compile with
  | error f => simp [hg, Except.toOption] at hok
  | ok g =>
    obtain ⟨t, script, d, -, ht, hscript, hread, -, -, -, htext, -⟩ := settings_written hr rfl hg
    exact ⟨_, g, hr, hg, t, script, d, ht, hscript, hread, htext⟩

end Recipe

end RecipeFlow
