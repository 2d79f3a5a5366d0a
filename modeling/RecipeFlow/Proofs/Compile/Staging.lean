import Mathlib.Data.List.TakeWhile
import RecipeFlow.Dataset.Node
import RecipeFlow.Proofs.Compile.Directories
import RecipeFlow.Proofs.Compile.Fetching
import RecipeFlow.Proofs.Url.Segments

/-! Staged files: which inputs have them stay in the directory that they are fetched into, and what
is made from them in the directory of its task. -/
namespace RecipeFlow

open Files

/-- Whether a file has to be brought to where it is read. -/
def FetchItem.isFetched : FetchItem → Bool
  | download .. | copy .. => true
  | mounted _ => false

/-- The last segment of the path that a text has as a locator, if it is not empty. -/
def Url.EndsIn (text : String) (s : List Char) : Prop :=
  (Url.parse text).toOption.bind Url.lastSegment? = some s ∧ s ≠ []

/-- An input whose files are called by names: what its text or its dataset says comes down to one
part of a path that names something. -/
def Input.IsNamed (i : Input) : Prop :=
  match i.kind with
  | .url => (∃ s, Url.EndsIn i.value s) ∨ basename i.value ∉ ["", ".", ".."]
  | .fileSystem => basename i.value ∉ ["", ".", ".."]
  | .dataone => ∀ o ∈ i.resolved, IsName o.filename
  | .pvcMount | .unknown _ => True

/-- Whether the files of a partitioned recipe stay where they belong. -/
structure ShellWorkflow.IsContained (r : Recipe) (g : Graph) (items : List FetchItem)
    (command : String) : Prop where
  /-- Files that are fetched are called by names if and only if this holds of each input. -/
  named : ∀ i ∈ r.inputs, ∃ files, FetchItem.ofInput i = .ok files ∧ files ⊆ items ∧
    ((∀ f ∈ files, f.isFetched = true → IsName f.filename) ↔ i.IsNamed)
  /-- A file that is called by a name is fetched to that name in the staging directory. -/
  fetched : ∃ commands, g.fetchCommands? = some commands ∧
    ∀ f ∈ items, f.isFetched = true → IsName f.filename →
      ∃ ws ∈ commands, f.words? (inputsDir r.id) .pinned = some ws ∧
        ∃ file, FetchItem.target? ws = some file ∧
          resolve file = resolve (inputsDir r.id) ++ [f.filename]
  /-- What the first command makes from it has that name in the output directory of its task. -/
  written : ∃ stage, g.stages.find? (·.kind = .process 0) = some stage ∧
    ∀ t ∈ stage.tasks, ∃ dir files, t.env? "OUTPUT_DIR" = some dir ∧
      ShellWorkflow.readTask command t =
        some (files.map (ShellWorkflow.assignment (inputsDir r.id))) ∧ files ⊆ items ∧
      ∀ f ∈ files, IsName f.filename →
        resolve (dir ++ "/" ++ f.filename) = resolve dir ++ [f.filename]

variable {r : Recipe} {w : ShellWorkflow} {g : Graph} {items files : List FetchItem} {i : Input}
  {f : FetchItem} {t : Task} {command path id : String} {rest : List String} {k : Nat}

theorem slash_notMem_basename (path : String) : '/' ∉ (basename path).toList := by
  rw [basename, String.toList_ofList, Text.afterLastSlash, List.mem_reverse]
  intro hmem
  simpa using List.mem_takeWhile_imp hmem

theorem isName_basename : IsName (basename path) ↔ basename path ∉ ["", ".", ".."] := by
  simp only [List.mem_cons, List.not_mem_nil, or_false, not_or]
  constructor
  · exact fun h => ⟨h.ne_empty, h.ne_dot, h.ne_dots⟩
  · rintro ⟨hempty, hdot, hdots⟩
    exact ⟨hempty, hdot, hdots, slash_notMem_basename path⟩

theorem Url.EndsIn.isSegment {s : List Char} (h : Url.EndsIn path s) : Url.IsSegment s := by
  obtain ⟨u, hu, hs⟩ := Option.bind_eq_some_iff.1 h.1
  have hparse : Url.parse path = .ok u := by
    cases hp : Url.parse path with
    | error f => simp [hp, Except.toOption] at hu
    | ok u' =>
      rw [hp] at hu
      cases hu
      rfl
  rw [Url.lastSegment?] at hs
  split at hs
  · next ss hpath => exact Url.isNormal_of_parse hparse ss hpath s (List.mem_of_getLast? hs)
  · cases hs

/-- The name of a download is the last segment of its path, or what is behind the last slash of its
text if there is no such segment. -/
theorem urlBasename_cases (path : String) :
    (∃ s, Url.EndsIn path s ∧ urlBasename path = String.ofList s) ∨
      (¬ ∃ s, Url.EndsIn path s) ∧ urlBasename path = basename path := by
  rw [urlBasename]
  split
  · next s hs =>
    cases s with
    | nil =>
      refine .inr ⟨?_, rfl⟩
      rintro ⟨s, hlast, hne⟩
      rw [hs] at hlast
      exact hne (Option.some.inj hlast).symm
    | cons c s => exact .inl ⟨c :: s, ⟨hs, List.cons_ne_nil c s⟩, rfl⟩
  · next hs =>
    refine .inr ⟨?_, rfl⟩
    rintro ⟨s, hlast, -⟩
    cases hs.symm.trans hlast

/-- What holds of every segment holds of the name of a download if and only if its path ends in one
or it holds of what is behind the last slash of its text. -/
theorem urlBasename_iff {P : String → Prop} (h : ∀ s, Url.EndsIn path s → P (String.ofList s)) :
    P (urlBasename path) ↔ (∃ s, Url.EndsIn path s) ∨ P (basename path) := by
  rcases urlBasename_cases path with ⟨s, hends, hname⟩ | ⟨hnone, hname⟩
  · rw [hname]
    exact ⟨fun _ => .inl ⟨s, hends⟩, fun _ => h s hends⟩
  · rw [hname, or_iff_right hnone]

theorem isName_urlBasename :
    IsName (urlBasename path) ↔ (∃ s, Url.EndsIn path s) ∨ basename path ∉ ["", ".", ".."] := by
  rw [urlBasename_iff fun s hs => hs.isSegment.isName hs.2, isName_basename]

namespace FetchItem

/-- The files of an input are called by names if and only if the input is named. -/
theorem isNamed_iff (h : ofInput i = .ok files) :
    (∀ f ∈ files, f.isFetched = true → IsName f.filename) ↔ i.IsNamed := by
  rcases ofInput_cases h with ⟨hkind, rfl⟩ | ⟨hkind, rfl⟩ | ⟨hkind, rfl⟩ | ⟨hkind, rfl⟩
  · simp only [Input.IsNamed, hkind, List.forall_mem_singleton, ← isName_urlBasename]
    exact ⟨fun hname => hname rfl, fun hname _ => hname⟩
  · simp only [Input.IsNamed, hkind, List.forall_mem_singleton, ← isName_basename]
    exact ⟨fun hname => hname rfl, fun hname _ => hname⟩
  · simp only [Input.IsNamed, hkind, List.forall_mem_singleton]
    exact ⟨fun _ => trivial, fun _ => nofun⟩
  · simp only [Input.IsNamed, hkind, List.forall_mem_map]
    exact ⟨fun hname o ho => hname o ho rfl, fun hname o ho _ => hname o ho⟩

theorem trimSlashes_inputsDir (id : String) : Text.trimSlashes (inputsDir id) = inputsDir id := by
  obtain ⟨cs, hcs⟩ : ∃ cs, (inputsDir id).toList.reverse = 's' :: cs := by
    rw [inputsDir, String.toList_append, List.reverse_append]
    exact ⟨_, rfl⟩
  rw [Text.trimSlashes, Text.dropEnd, hcs, List.dropWhile_cons_of_neg (by decide), ← hcs,
    List.reverse_reverse, String.ofList_toList]

/-- A file that is called by a name lies below the staging directory once it is fetched. -/
theorem exists_target (hf : f ∈ items) (hfetched : f.isFetched = true) (hname : IsName f.filename) :
    ∃ ws ∈ fetchWords items (inputsDir id) .pinned, f.words? (inputsDir id) .pinned = some ws ∧
      ∃ file, target? ws = some file ∧
        resolve file = resolve (inputsDir id) ++ [f.filename] := by
  have hresolve : resolve (Text.trimSlashes (inputsDir id) ++ "/" ++ f.filename) =
      resolve (inputsDir id) ++ [f.filename] := by
    rw [trimSlashes_inputsDir]
    exact resolve_name hname
  cases f with
  | mounted path => cases hfetched
  | copy path name => exact ⟨_, mem_fetchWords hf rfl, rfl, _, rfl, hresolve⟩
  | download url name => exact ⟨_, mem_fetchWords hf rfl, rfl, _, rfl, hresolve⟩

end FetchItem

namespace ShellWorkflow

/-- A task of a command runs it on files that are found among the items. -/
theorem exists_files (h : t ∈ commandTasks r w items k command) :
    ∃ p files, t = fileTask r ⟨r.id, k, p⟩ files command ∧ files ⊆ items := by
  obtain ⟨p, hp, rfl⟩ := List.mem_mapIdx.1 h
  refine ⟨p, _, rfl, ?_⟩
  intro f hf
  obtain ⟨s, hs, rfl⟩ := List.mem_map.1 hf
  obtain ⟨i, hi, rfl⟩ := List.mem_map.1 (Partition.mem_of_mem_chunks (List.getElem_mem hp) s hs)
  exact (found_spec hi).1

/-- Files that are called by names stay where they belong, and just those inputs have others whose
text or dataset comes down to no name. -/
theorem isContained_of_compile (hg : r.compile = .ok g) (hw : r.workflow = .shell w)
    (hpar : w.parallel.enabled = true) (hid : Recipe.deriveId r.name = .ok r.id)
    (hitems : FetchItem.ofInputs r.inputs = .ok items) (hc : w.commands = command :: rest) :
    IsContained r g items command := by
  have hfetch := fetchCommands?_of_compile hg hw hid hitems
  have hstage := find?_commandStage hg hw hpar hitems hc
  rw [fetchCommands, if_pos hpar] at hfetch
  constructor
  · obtain ⟨files, hfiles, rfl⟩ := FetchItem.eq_flatMap_of_ofInputs hitems
    intro i hi
    refine ⟨files i, hfiles i hi, ?_, FetchItem.isNamed_iff (hfiles i hi)⟩
    exact fun f hf => List.mem_flatMap.2 ⟨i, hi, hf⟩
  · refine ⟨_, hfetch, ?_⟩
    intro f hf hfetched hname
    obtain ⟨ws, hws, htarget⟩ := FetchItem.exists_target hf hfetched hname
    exact ⟨ws, List.mem_cons_of_mem _ hws, htarget⟩
  · refine ⟨_, hstage, ?_⟩
    intro t ht
    obtain ⟨u, hu, rfl⟩ := List.mem_map.1 ht
    obtain ⟨p, files, rfl, hfiles⟩ := exists_files hu
    refine ⟨_, files, standsAt_fileTask.output, ?_, hfiles, fun f _ hname => resolve_name hname⟩
    exact readScript_partitionScript r.id p

/-- A recipe whose first command runs on partitions of some inputs. -/
def staging (inputs : List Input) : Recipe where
  name := "r"
  id := "r"
  image := none
  inputs := inputs
  output := .pvc
  workflow := .shell ⟨"d/recipe.sh", ["gzip -c $INPUT_FILE > $OUTPUT_FILE"], ⟨true, none⟩⟩
  directory := "d"

/-- Inputs of each kind of names: of the path of a locator, of a file, of the files of a dataset. -/
def namedInputs : List Input :=
  [⟨.url, "https://h.example/d/../a.nc?v=1", none, []⟩, ⟨.fileSystem, "/data/b.nc/", none, []⟩,
    ⟨.dataone, "ds", none, [⟨"urn:x", "https://h.example/v2/object/urn-x", "c.nc", "", 0, ""⟩]⟩]

theorem isContained_of_compile_named : ∃ g items, (staging namedInputs).compile = .ok g ∧
    items.map FetchItem.filename = ["a.nc", "b.nc", "c.nc"] ∧
    IsContained (staging namedInputs) g items "gzip -c $INPUT_FILE > $OUTPUT_FILE" := by
  have hok : (staging namedInputs).compile.toOption.isSome := by decide +kernel
  have hid : Recipe.deriveId "r" = .ok "r" := by decide +kernel
  have hitems : FetchItem.ofInputs namedInputs =
      .ok [.download "https://h.example/d/../a.nc?v=1" "a.nc", .copy "/data/b.nc/" "b.nc",
        .download "https://h.example/v2/object/urn-x" "c.nc"] := by
    decide +kernel
  cases hg : (staging namedInputs).compile with
  | error f => simp [hg, Except.toOption] at hok
  | ok g => exact ⟨g, _, rfl, rfl, isContained_of_compile hg rfl rfl hid hitems rfl⟩

theorem fetchCommands?_staging {inputs : List Input}
    (hok : (staging inputs).compile.toOption.isSome = true)
    (hitems : FetchItem.ofInputs inputs = .ok items) : ∃ g, (staging inputs).compile = .ok g ∧
      g.fetchCommands? = some (["rm", "-rf", scratchDir "r"] ::
        FetchItem.fetchWords items (inputsDir "r") .pinned) := by
  have hid : Recipe.deriveId "r" = .ok "r" := by decide +kernel
  cases hg : (staging inputs).compile with
  | error f => simp [hg, Except.toOption] at hok
  | ok g => exact ⟨g, rfl, fetchCommands?_of_compile hg rfl hid hitems⟩

/-- The file of a dataset that a node lists by an identifier alone. -/
def listedObject : DataObject :=
  Dataset.Node.Entry.object "https://h.example" ⟨"doi:10.18739/A2", none, none, none, []⟩

/-- Two dots for a name lead out of the staging directory, and an identifier may hold a slash. -/
theorem staging_leaves :
    (∃ g commands, (staging [⟨.url, "https://h.example/data/..", none, []⟩]).compile = .ok g ∧
      g.fetchCommands? = some commands ∧
      commands.filterMap FetchItem.target? = ["/mnt/workflow/.work/r/inputs/.."]) ∧
    (∃ g commands, (staging [⟨.dataone, "ds", none, [listedObject]⟩]).compile = .ok g ∧
      g.fetchCommands? = some commands ∧
      commands.filterMap FetchItem.target? = ["/mnt/workflow/.work/r/inputs/10.18739/A2"]) ∧
    resolve "/mnt/workflow/.work/r/inputs/.." = resolve (scratchDir "r") ∧
    resolve "/mnt/workflow/.work/r/inputs/10.18739/A2" =
      resolve (inputsDir "r") ++ ["10.18739", "A2"] := by
  refine ⟨?_, ?_, by decide +kernel, by decide +kernel⟩
  · obtain ⟨g, hg, hfetch⟩ := fetchCommands?_staging (by decide +kernel)
      (show FetchItem.ofInputs [⟨.url, "https://h.example/data/..", none, []⟩] =
        .ok [.download "https://h.example/data/.." ".."] by decide +kernel)
    exact ⟨g, _, hg, hfetch, by decide +kernel⟩
  · obtain ⟨g, hg, hfetch⟩ := fetchCommands?_staging (by decide +kernel)
      (show FetchItem.ofInputs [⟨.dataone, "ds", none, [listedObject]⟩] =
        .ok [.download listedObject.url "10.18739/A2"] by decide +kernel)
    exact ⟨g, _, hg, hfetch, by decide +kernel⟩

end ShellWorkflow

end RecipeFlow
