import RecipeFlow.Proofs.Compile.Coverage
import RecipeFlow.Proofs.Compile.Links
import RecipeFlow.Proofs.Recipe.Identifier
import RecipeFlow.Proofs.Shell.AndList

/-! What a fetching script runs, word by word, and that files are read where it leaves them. -/
namespace RecipeFlow

namespace FetchItem

open Shell

variable {items : List FetchItem} {i : FetchItem} {dir : String} {naming : FetchNaming}

/-- The files of an input, by the kinds of inputs that have some. -/
theorem ofInput_cases {i : Input} (h : ofInput i = .ok items) :
    (i.kind = .url ∧ items = [.download i.value (urlBasename i.value)]) ∨
      (i.kind = .fileSystem ∧ items = [.copy i.value (basename i.value)]) ∨
      (i.kind = .pvcMount ∧ items = [.mounted i.value]) ∨
      (i.kind = .dataone ∧ items = i.resolved.map fun o => .download o.url o.filename) := by
  cases hkind : i.kind with
  | url =>
    simp only [ofInput, hkind] at h
    exact .inl ⟨rfl, (Except.ok.inj h).symm⟩
  | fileSystem =>
    simp only [ofInput, hkind] at h
    exact .inr (.inl ⟨rfl, (Except.ok.inj h).symm⟩)
  | pvcMount =>
    simp only [ofInput, hkind] at h
    exact .inr (.inr (.inl ⟨rfl, (Except.ok.inj h).symm⟩))
  | dataone =>
    simp only [ofInput, hkind] at h
    split at h
    · cases h
    · exact .inr (.inr (.inr ⟨rfl, (Except.ok.inj h).symm⟩))
  | unknown kind =>
    simp only [ofInput, hkind] at h
    cases h

/-- Where fetching is planned, each input adds its own files. -/
theorem eq_flatMap_of_ofInputs {is : List Input} (h : ofInputs is = .ok items) :
    ∃ files : Input → List FetchItem, (∀ i ∈ is, ofInput i = .ok (files i)) ∧
      items = is.flatMap files := by
  obtain ⟨xss, hmap, rfl⟩ := map_eq_ok h
  have hfiles : ∀ i ∈ is, ofInput i = .ok ((ofInput i).toOption.getD []) := by
    intro i hi
    obtain ⟨n, hn⟩ := List.mem_iff_getElem?.1 hi
    obtain ⟨xs, hxs, -⟩ := getElem?_of_mapM hmap hn
    rw [hxs]
    rfl
  rw [mapM_eq_ok hfiles] at hmap
  cases hmap
  exact ⟨fun i => (ofInput i).toOption.getD [], hfiles, rfl⟩

/-- The words of the command that brings a file into a directory, if one is needed. -/
def words? (dir : String) (naming : FetchNaming) : FetchItem → Option (List String)
  | download url name => some (match naming with
    | .server => ["wget", "--content-disposition", "-P"] ++ bareWords dir ++ [url]
    | .pinned => ["wget", "-O", Text.trimSlashes dir ++ "/" ++ name, url])
  | copy path name => some ["cp", path, Text.trimSlashes dir ++ "/" ++ name]
  | mounted _ => none

/-- The commands that fetch every item into a directory, each as its words. -/
def fetchWords (items : List FetchItem) (dir : String) (naming : FetchNaming) :
    List (List String) :=
  (["mkdir", "-p"] ++ bareWords dir) ::
    if items.filterMap (words? dir naming) = [] then [["echo", "No input files to fetch"]]
    else items.filterMap (words? dir naming)

theorem isSafe_below (h : IsSafe dir) : IsSafe (Text.trimSlashes dir ++ "/") := by
  refine IsSafe.append (fun c hc => h c ?_) (isSafe_of_all (by decide))
  rw [Text.trimSlashes, String.toList_ofList, Text.dropEnd, List.mem_reverse] at hc
  exact List.mem_reverse.1 ((List.dropWhile_sublist _).subset hc)

/-- The command of an item is read as its words. -/
theorem spells_command? (h : IsSafe dir) (naming : FetchNaming) (i : FetchItem) :
    Option.Rel (fun s ws => Spells s ws ∧ ws ≠ []) (i.command? dir naming)
      (i.words? dir naming) := by
  have hwget := spells_fixed "wget" (by decide)
  have hbelow : ∀ name, Spells (Text.trimSlashes dir ++ "/" ++ quote name)
      [Text.trimSlashes dir ++ "/" ++ name] := spells_below (isSafe_below h)
  cases i with
  | mounted path => exact .none
  | copy path name =>
    have hcp := (spells_fixed "cp" (by decide)).append (spells_quote path)
    have hspells := hcp.append (hbelow name)
    simp only [← String.append_assoc] at hspells
    exact .some ⟨hspells, List.cons_ne_nil _ _⟩
  | download url name =>
    cases naming with
    | server =>
      have hoptions := (spells_fixed "--content-disposition" (by decide)).append
        (spells_fixed "-P" (by decide))
      have hspells := ((hwget.append hoptions).append (spells_bare h)).append (spells_quote url)
      simp only [← String.append_assoc] at hspells
      exact .some ⟨hspells, List.cons_ne_nil _ _⟩
    | pinned =>
      have hspells := ((hwget.append (spells_fixed "-O" (by decide))).append
        (hbelow name)).append (spells_quote url)
      simp only [← String.append_assoc] at hspells
      exact .some ⟨hspells, List.cons_ne_nil _ _⟩

/-- Whatever texts the items hold, a fetching script runs just their commands, in order. -/
theorem commands?_fetchCommand (items : List FetchItem) (h : IsSafe dir) (naming : FetchNaming) :
    commands? (fetchCommand items dir naming) = some (fetchWords items dir naming) := by
  have hmkdir : Spells ("mkdir -p " ++ dir) (["mkdir", "-p"] ++ bareWords dir) :=
    ((spells_fixed "mkdir" (by decide)).append (spells_fixed "-p" (by decide))).append
      (spells_bare h)
  have hcommands : List.Forall₂ (fun s ws => Spells s ws ∧ ws ≠ [])
      (items.filterMap (command? dir naming)) (items.filterMap (words? dir naming)) := by
    refine List.rel_filterMap (R := Eq) ?_ (List.forall₂_eq_eq_eq ▸ rfl)
    rintro i _ rfl
    exact spells_command? h naming i
  have hecho : commands? "echo 'No input files to fetch'" =
      some [["echo", "No input files to fetch"]] := by
    decide +kernel
  rw [fetchCommand, commands?_and hmkdir (List.cons_ne_nil _ _), fetchWords]
  generalize items.filterMap (command? dir naming) = texts at hcommands ⊢
  generalize items.filterMap (words? dir naming) = commands at hcommands ⊢
  cases hcommands with
  | nil => exact congrArg (Option.map _) hecho
  | cons hfirst hrest =>
    exact congrArg (Option.map _)
      (commands?_intercalate (List.cons_ne_nil _ _) (.cons hfirst hrest))

/-- The file that a fetching command leaves behind. -/
def target? : List String → Option String
  | ["wget", "-O", file, _] | ["cp", _, file] => some file
  | _ => none

/-- An item is read at a path once some items are fetched into a directory: the one that its own
command among theirs leaves it at, or where it is mounted. -/
def IsReadAt (items : List FetchItem) (dir : String) (i : FetchItem) (path : String) : Prop :=
  match i.words? dir .pinned with
  | some ws => ws ∈ fetchWords items dir .pinned ∧ target? ws = some path
  | none => path = i.source

theorem mem_fetchWords {ws : List String} (hi : i ∈ items) (h : i.words? dir naming = some ws) :
    ws ∈ fetchWords items dir naming := by
  have hmem : ws ∈ items.filterMap (words? dir naming) := List.mem_filterMap.2 ⟨i, hi, h⟩
  rw [fetchWords, if_neg (List.ne_nil_of_mem hmem)]
  exact List.mem_cons_of_mem _ hmem

/-- The path that scripts are told for an item is where it is read at. -/
theorem isReadAt_inputPath (hi : i ∈ items) : i.IsReadAt items dir (i.inputPath dir) := by
  cases i with
  | mounted path => rfl
  | copy path name => exact ⟨mem_fetchWords hi rfl, rfl⟩
  | download url name => exact ⟨mem_fetchWords hi rfl, rfl⟩

end FetchItem

/-- The commands that a graph's fetching task runs, each as its words. -/
def Graph.fetchCommands? (g : Graph) : Option (List (List String)) := do
  let t ← g.task? ShellWorkflow.fetchName
  let script ← t.container.script?
  Shell.commands? script

namespace ShellWorkflow

open FetchItem

variable {r : Recipe} {w : ShellWorkflow} {g : Graph} {items : List FetchItem} {command : String}
  {rest : List String}

/-- A compiled recipe has a task that fetches its items. -/
theorem exists_fetch_of_compile (hg : r.compile = .ok g) (hw : r.workflow = .shell w)
    (hitems : ofInputs r.inputs = .ok items) : ∃ t, g.task? fetchName = some t ∧
      t.container = (if w.parallel.enabled then stagingTask r items else fetchTask items).container
    := by
  obtain ⟨ss, hplan, rfl⟩ := Recipe.compile_planned hg
  cases hplan with
  | visualization hv => cases hw.symm.trans hv
  | sequential hw' hseq hitems' hmake =>
    obtain rfl : w = _ := Workflow.shell.inj (hw.symm.trans hw')
    obtain rfl : items = _ := Except.ok.inj (hitems.symm.trans hitems')
    rw [hseq]
    exact Graph.exists_found (g := emptyGraph r) (u := fetchTask items) rfl
      (nodup_sequential (PublishTask.name_of_make hmake))
      (List.mem_flatMap.2 ⟨_, List.mem_cons_self, List.mem_singleton_self _⟩)
  | partitioned hw' hpar hitems' _ _ hmake =>
    obtain rfl : w = _ := Workflow.shell.inj (hw.symm.trans hw')
    obtain rfl : items = _ := Except.ok.inj (hitems.symm.trans hitems')
    rw [hpar]
    exact Graph.exists_found (g := emptyGraph r) (u := stagingTask r items) rfl
      (nodup_partitioned (PublishTask.name_of_make hmake))
      (List.mem_flatMap.2 ⟨_, List.mem_cons_self, List.mem_singleton_self _⟩)

/-- The commands that fetch a recipe's items, each as its words. -/
def fetchCommands (r : Recipe) (w : ShellWorkflow) (items : List FetchItem) :
    List (List String) :=
  if w.parallel.enabled then
    ["rm", "-rf", scratchDir r.id] :: fetchWords items (inputsDir r.id) .pinned
  else fetchWords items outputDir .server

/-- The fetching task of a compiled recipe runs the commands of the recipe's items. -/
theorem fetchCommands?_of_compile (hg : r.compile = .ok g) (hw : r.workflow = .shell w)
    (hid : Recipe.deriveId r.name = .ok r.id) (hitems : ofInputs r.inputs = .ok items) :
    g.fetchCommands? = some (fetchCommands r w items) := by
  obtain ⟨t, ht, hcontainer⟩ := exists_fetch_of_compile hg hw hitems
  rw [Graph.fetchCommands?, ht, Option.bind_eq_bind, Option.bind_some, hcontainer, fetchCommands]
  have hscratch := (Recipe.isPlain_scratchDir hid).isSafe
  cases w.parallel.enabled with
  | false => exact commands?_fetchCommand items (Shell.isSafe_of_all (by decide)) .server
  | true =>
    have hne : scratchDir r.id ≠ "" := by simp [scratchDir, volumeMount]
    have hrm : Shell.Spells ("rm -rf " ++ scratchDir r.id) ["rm", "-rf", scratchDir r.id] :=
      ((Shell.spells_fixed "rm" (by decide)).append (Shell.spells_fixed "-rf" (by decide))).append
        (Shell.spells_self hscratch hne)
    have hinputs : Shell.IsSafe (inputsDir r.id) :=
      hscratch.append (Shell.isSafe_of_all (by decide))
    refine (Shell.commands?_and hrm (List.cons_ne_nil _ _) _).trans ?_
    rw [commands?_fetchCommand items hinputs .pinned]
    rfl

/-- No text of an item breaks a fetching script, and a partitioned first command is told to read
each file where the script leaves it. -/
theorem inputs_read_where_fetched :
    (∀ (items : List FetchItem) (dir : String) (naming : FetchNaming), Shell.IsSafe dir →
      Shell.commands? (fetchCommand items dir naming) = some (fetchWords items dir naming)) ∧
    ∀ (r : Recipe) (w : ShellWorkflow) (g : Graph) (items : List FetchItem) (command : String)
      (rest : List String), r.compile = .ok g → r.workflow = .shell w →
      w.parallel.enabled = true → Recipe.deriveId r.name = .ok r.id →
      ofInputs r.inputs = .ok items → w.commands = command :: rest →
      ∃ stage ps, g.stages.find? (·.kind = .process 0) = some stage ∧
        g.fetchCommands? = some (["rm", "-rf", scratchDir r.id] ::
          fetchWords items (inputsDir r.id) .pinned) ∧
        processed command stage.tasks = some ps ∧
        List.Forall₂ (fun i p => ∃ j ∈ items, j.source = i.source ∧ j.filename = p.2 ∧
          j.IsReadAt items (inputsDir r.id) p.1) items ps := by
  refine ⟨fun items dir naming h => commands?_fetchCommand items h naming, ?_⟩
  intro r w g items command rest hg hw hpar hid hitems hc
  obtain ⟨stage, hstage, hps⟩ := exists_processed hg hw hpar hitems hc
  have hfetch := fetchCommands?_of_compile hg hw hid hitems
  rw [fetchCommands, if_pos hpar] at hfetch
  refine ⟨stage, _, hstage, hfetch, hps, ?_⟩
  rw [List.forall₂_map_right_iff, List.forall₂_same]
  intro i hi
  obtain ⟨hmem, hsource⟩ := found_spec hi
  exact ⟨found items i.source, hmem, hsource, rfl, isReadAt_inputPath hmem⟩

/-- A recipe whose inputs hold what a shell would not take for a part of a word. -/
def hostile : Recipe where
  name := "r"
  id := "r"
  image := none
  inputs := [⟨.url, "https://h.example/d/a'b?q=1&&id", none, []⟩,
    ⟨.fileSystem, "/data/$(id) && x;.nc", none, []⟩, ⟨.pvcMount, "/mnt/m n", none, []⟩]
  output := .pvc
  workflow := .shell ⟨"d/recipe.sh", ["gzip $INPUT_FILE"], ⟨true, none⟩⟩
  directory := "d"

/-- The items of `hostile`. -/
def hostileItems : List FetchItem :=
  [.download "https://h.example/d/a'b?q=1&&id" "a'b", .copy "/data/$(id) && x;.nc" "$(id) && x;.nc",
    .mounted "/mnt/m n"]

theorem inputs_read_where_fetched_hostile : ∃ g stage ps,
    Shell.commands? (fetchCommand hostileItems "/d/" .server) = some [["mkdir", "-p", "/d/"],
      ["wget", "--content-disposition", "-P", "/d/", "https://h.example/d/a'b?q=1&&id"],
      ["cp", "/data/$(id) && x;.nc", "/d/$(id) && x;.nc"]] ∧
    hostile.compile = .ok g ∧ g.stages.find? (·.kind = .process 0) = some stage ∧
    processed "gzip $INPUT_FILE" stage.tasks = some ps ∧
    List.Forall₂ (fun i p => ∃ j ∈ hostileItems, j.source = i.source ∧ j.filename = p.2 ∧
      j.IsReadAt hostileItems (inputsDir "r") p.1)
        hostileItems ps := by
  have hok : hostile.compile.toOption.isSome := by decide +kernel
  cases hg : hostile.compile with
  | error f => simp [hg, Except.toOption] at hok
  | ok g =>
    obtain ⟨hcommands, hread⟩ := inputs_read_where_fetched
    have hserver := hcommands hostileItems "/d/" .server (Shell.isSafe_of_all (by decide))
    obtain ⟨stage, ps, hstage, -, hps, hall⟩ := hread hostile _ g hostileItems _ _ hg rfl rfl
      (by decide +kernel) (by decide +kernel) rfl
    exact ⟨g, stage, ps, hserver.trans (by decide +kernel), rfl, hstage, hps, hall⟩

/-- If no two items have one source, each of them is itself what is read. -/
theorem items_read_where_fetched (hg : r.compile = .ok g) (hw : r.workflow = .shell w)
    (hpar : w.parallel.enabled = true) (hitems : ofInputs r.inputs = .ok items)
    (hc : w.commands = command :: rest) (hs : (items.map FetchItem.source).Nodup) :
    ∃ stage ps, g.stages.find? (·.kind = .process 0) = some stage ∧
      processed command stage.tasks = some ps ∧
      List.Forall₂ (fun i p => i.filename = p.2 ∧ i.IsReadAt items (inputsDir r.id) p.1)
        items ps := by
  obtain ⟨stage, hstage, hps⟩ := exists_processed hg hw hpar hitems hc
  refine ⟨stage, _, hstage, hps, ?_⟩
  rw [List.forall₂_map_right_iff, List.forall₂_same]
  intro i hi
  rw [found_of_nodup hs hi]
  exact ⟨rfl, isReadAt_inputPath hi⟩

end ShellWorkflow

end RecipeFlow
