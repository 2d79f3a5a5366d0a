import RecipeFlow.Files.Tree
import RecipeFlow.Proofs.Except
import RecipeFlow.Proofs.Files.Inside
import RecipeFlow.Recipe.Load

/-! The file that a recipe refers to: what is read of it, and whether it lies in the recipe's own
directory. -/
namespace RecipeFlow

open Files

variable {files others : Files} {dir path what s text : String} {w : Workflow} {r : Recipe}

/-- The path of the file that was read for a workflow, if one was. -/
def Workflow.file? : Workflow → Option String
  | shell w => some w.file
  | visualization v => v.configFile

theorem Files.readNamed_eq_ok : files.readNamed path what = .ok s ↔ files.read path = .ok s := by
  unfold readNamed
  cases files.read path with
  | ok content => simp
  | error e => cases e <;> simp

namespace WorkflowSection

variable {sec : WorkflowSection}

/-- What a shell workflow is loaded with is the commands of its file. -/
theorem commanded_of_load {file : String} {p : Parallel}
    (h : (shell file p).load files dir = .ok w) :
    ∃ content, files.read (join dir file) = .ok content ∧
      w = .shell ⟨join dir file, Recipe.parseCommands content, p⟩ := by
  obtain ⟨-, -, h⟩ := bind_eq_ok.1 h
  obtain ⟨content, hread, h⟩ := bind_eq_ok.1 h
  dsimp only at h
  split at h
  · cases h
  · cases h
    exact ⟨content, readNamed_eq_ok.1 hread, rfl⟩

/-- What a visualization is loaded with is the text of a document: of the one in its file, if it has
a file. -/
theorem configured_of_load {size : Nat} {file : Option String}
    (h : (visualization size file).load files dir = .ok w) :
    ∃ v document, w = .visualization v ∧ v.configJson = Json.compact document ∧
      v.configFile = file.map (join dir) ∧ ∀ path, v.configFile = some path →
        ∃ content, files.read path = .ok content ∧ Json.parse? content = some document := by
  simp only [load] at h
  split at h
  · cases h
  · cases file with
    | none =>
      cases h
      have hempty : "\x7b\x7d" = (Json.obj []).compact := by decide
      exact ⟨_, .obj [], rfl, hempty, rfl, nofun⟩
    | some name =>
      obtain ⟨content, hread, h⟩ := bind_eq_ok.1 h
      split at h
      · next document hdocument =>
        cases h
        refine ⟨_, document, rfl, rfl, rfl, ?_⟩
        rintro _ ⟨⟩
        exact ⟨content, readNamed_eq_ok.1 hread, hdocument⟩
      · cases h

/-- The file of a loaded workflow is the one that its section names, and it can be read. -/
theorem file?_of_load (h : sec.load files dir = .ok w) : w.file? = sec.file?.map (join dir) ∧
    ∀ path, w.file? = some path → ∃ content, files.read path = .ok content := by
  cases sec with
  | shell file p =>
    obtain ⟨content, hread, rfl⟩ := commanded_of_load h
    refine ⟨rfl, ?_⟩
    rintro _ ⟨⟩
    exact ⟨content, hread⟩
  | visualization size file =>
    obtain ⟨v, document, rfl, -, hnamed, hfile⟩ := configured_of_load h
    refine ⟨hnamed, ?_⟩
    intro path hpath
    obtain ⟨content, hread, -⟩ := hfile path hpath
    exact ⟨content, hread⟩

/-- Nothing but the file that it names counts for a workflow. -/
theorem load_congr (h : ∀ name, sec.file? = some name →
    others.read (join dir name) = files.read (join dir name)) :
    sec.load others dir = sec.load files dir := by
  cases sec with
  | shell file parallel => simp only [load, readNamed, h file rfl]
  | visualization size file =>
    cases file with
    | none => rfl
    | some name => simp only [load, readNamed, h name rfl]

end WorkflowSection

namespace Recipe

theorem document_of_ofText (h : ofText files dir text = .ok r) : ∃ d,
    RecipeDocument.ofText text = .ok d ∧ ofDocument files dir d = .ok r := by
  obtain ⟨d, hd, h⟩ := bind_eq_ok.1 h
  cases htext : RecipeDocument.ofText text with
  | error m =>
    rw [htext] at hd
    cases hd
  | ok d' =>
    rw [htext] at hd
    cases hd
    exact ⟨d, rfl, h⟩

theorem workflow_of_ofDocument {d : RecipeDocument} (h : ofDocument files dir d = .ok r) :
    d.workflow.load files dir = .ok r.workflow := by
  obtain ⟨id, -, h⟩ := bind_eq_ok.1 h
  obtain ⟨_, -, h⟩ := bind_eq_ok.1 h
  obtain ⟨w, hw, h⟩ := bind_eq_ok.1 h
  cases h
  exact hw

/-- The workflow of a recipe is what is loaded for a section of its document. -/
theorem exists_section_of_ofText (h : ofText files dir text = .ok r) :
    ∃ sec : WorkflowSection, sec.load files dir = .ok r.workflow := by
  obtain ⟨d, -, hr⟩ := document_of_ofText h
  exact ⟨d.workflow, workflow_of_ofDocument hr⟩

/-- Of all files only the one that a recipe names is read for it, and it lies inside the recipe's
directory just if its name leads there. A name that is sheltered does so from everywhere. -/
theorem reads_inside_iff (h : ofText files dir text = .ok r)
    (hfile : r.workflow.file? = some path) : ∃ d name content,
      RecipeDocument.ofText text = .ok d ∧ d.workflow.file? = some name ∧ path = join dir name ∧
      files.read path = .ok content ∧
      (∀ others : Files, others.read path = .ok content → ofText others dir text = .ok r) ∧
      (∀ cwd, Inside cwd dir path ↔ LeadsInside (resolveFrom cwd dir) name) ∧
      (IsSheltered name → ∀ cwd, Inside cwd dir path) := by
  obtain ⟨d, hd, hr⟩ := document_of_ofText h
  obtain ⟨hnamed, hread⟩ := WorkflowSection.file?_of_load (workflow_of_ofDocument hr)
  obtain ⟨name, hname, hpath⟩ := Option.map_eq_some_iff.1 (hnamed.symm.trans hfile)
  obtain ⟨content, hcontent⟩ := hread path hfile
  obtain rfl : path = join dir name := hpath.symm
  refine ⟨d, name, content, hd, hname, rfl, hcontent, ?_, fun cwd => inside_join_iff, ?_⟩
  · intro others hothers
    have hload : d.workflow.load others dir = d.workflow.load files dir := by
      refine WorkflowSection.load_congr fun name' hname' => ?_
      cases hname.symm.trans hname'
      exact hothers.trans hcontent.symm
    have hsame : ofDocument others dir d = ofDocument files dir d := by
      simp only [ofDocument, hload]
    rw [← h, ofText, ofText, hd]
    exact hsame
  · intro hsheltered cwd
    exact inside_join_iff.2 (isSheltered_iff.1 hsheltered _)

/-- A directory of a recipe beside one that other recipes share. -/
def shelf : FileTree :=
  .directory [
    ("d", .directory [("recipe.sh", .file (some "true")), ("scripts", .directory [])]),
    ("shared", .directory [("recipe.sh", .file (some "true"))])]

/-- A recipe that names a shell file. -/
def naming (name : String) : String :=
  "name: r\ninput:\n  params:\n  - type: file_system\n    value: /a\n" ++
    "workflow:\n  type: shell\n  sh_file: " ++ name ++ "\n"

/-- The recipe whose shell file was read from a path. -/
def readFrom (path : String) : Recipe where
  name := "r"
  id := "r"
  image := none
  inputs := [⟨.fileSystem, "/a", none, []⟩]
  output := .pvc
  workflow := .shell ⟨path, ["true"], {}⟩
  directory := "d"

/-- A name that leads down, back and down again is sheltered. -/
theorem reads_inside_iff_detour :
    ofText shelf.files "d" (naming "scripts/../recipe.sh") =
        .ok (readFrom "d/scripts/../recipe.sh") ∧
      (readFrom "d/scripts/../recipe.sh").workflow.file? = some "d/scripts/../recipe.sh" ∧
      ∀ cwd, Inside cwd "d" "d/scripts/../recipe.sh" := by
  have h : ofText shelf.files "d" (naming "scripts/../recipe.sh") =
      .ok (readFrom "d/scripts/../recipe.sh") := by decide +kernel
  obtain ⟨d, name, content, hd, hname, -, -, -, -, hsheltered⟩ := reads_inside_iff h rfl
  have hnamed : (RecipeDocument.ofText (naming "scripts/../recipe.sh")).toOption.bind
      (·.workflow.file?) = some "scripts/../recipe.sh" := by decide +kernel
  rw [hd] at hnamed
  obtain rfl : name = "scripts/../recipe.sh" := Option.some.inj (hname.symm.trans hnamed)
  exact ⟨h, rfl, hsheltered ⟨by decide, by decide +kernel, by decide +kernel⟩⟩

/-- A name that leads up leaves the directory, and is read all the same. -/
theorem leaving_read : ofText shelf.files "d" (naming "../shared/recipe.sh") =
      .ok (readFrom "d/../shared/recipe.sh") ∧
    (readFrom "d/../shared/recipe.sh").workflow.file? = some "d/../shared/recipe.sh" ∧
    ∀ cwd, resolveFrom cwd "d/../shared/recipe.sh" = cwd ++ ["shared", "recipe.sh"] ∧
      ¬ Inside cwd "d" "d/../shared/recipe.sh" := by
  refine ⟨by decide +kernel, rfl, fun cwd => ?_⟩
  have hparts : FileTree.components "d/../shared/recipe.sh" =
      ["d", "..", "shared", "recipe.sh"] := by decide +kernel
  have hdir : resolveFrom cwd "d" = cwd ++ ["d"] := rfl
  have hplace : resolveFrom cwd "d/../shared/recipe.sh" = cwd ++ ["shared", "recipe.sh"] := by
    rw [resolveFrom, hparts, if_neg (by decide)]
    simp [enter]
  refine ⟨hplace, ?_⟩
  rintro ⟨hbelow, -⟩
  rw [hdir, hplace, List.prefix_append_right_inj] at hbelow
  exact absurd hbelow (by decide)

end Recipe

end RecipeFlow
