import RecipeFlow.Proofs.Compile.Staging

/-! Lists of files: which tasks of a partitioned recipe can read back the names of their files. -/
namespace RecipeFlow

variable {r : Recipe} {w : ShellWorkflow} {g : Graph} {items files : List FetchItem} {i : Input}
  {s : Stage} {t : Task} {command list : String} {names ds : List String} {sep : Char}
  {xs : List Char} {k n : Nat}

/-- The names that a list of files holds, one on each line. -/
def listedNames (list : String) : List String :=
  (Text.split '\n' list.toList).map String.ofList

/-- The names that a task is told its files by. -/
def Task.listed? (t : Task) : Option (List String) :=
  (t.env? "PARTITION_FILES").map listedNames

/-- An input whose files are called by names of one line each. -/
def Input.IsListable (i : Input) : Prop :=
  match i.kind with
  | .url => (∃ s, Url.EndsIn i.value s) ∨ '\n' ∉ (basename i.value).toList
  | .fileSystem | .pvcMount => '\n' ∉ (basename i.value).toList
  | .dataone => ∀ o ∈ i.resolved, '\n' ∉ o.filename.toList
  | .unknown _ => True

theorem length_listedNames : (listedNames list).length = list.toList.count '\n' + 1 := by
  rw [listedNames, List.length_map, Text.length_split]

theorem listedNames_of_notMem (h : '\n' ∉ list.toList) : listedNames list = [list] := by
  rw [listedNames, Text.split, Text.splitFrom_of_notMem h]
  simp

/-- A list of names is read as the lines of each of them. -/
theorem listedNames_intercalate (h : names ≠ []) :
    listedNames ("\n".intercalate names) = names.flatMap listedNames := by
  obtain ⟨name, names, rfl⟩ := List.exists_cons_of_ne_nil h
  clear h
  rw [listedNames, ShellWorkflow.toList_intercalate_cons]
  induction names generalizing name with
  | nil => simp [listedNames]
  | cons next names ih =>
    have hsplit : Text.split '\n' (name.toList ++ '\n' :: (next.toList ++
        names.flatMap fun m => '\n' :: m.toList)) = Text.split '\n' name.toList ++
          Text.split '\n' (next.toList ++ names.flatMap fun m => '\n' :: m.toList) := by
      rw [Text.split, Text.splitFrom_append]
      rfl
    rw [List.flatMap_cons, List.cons_append, hsplit, List.map_append, ih, List.flatMap_cons]
    rfl

theorem length_le_listedNames (names : List String) :
    names.length ≤ (names.flatMap listedNames).length := by
  induction names with
  | nil => exact Nat.le_refl _
  | cons name names ih =>
    rw [List.flatMap_cons, List.length_append, List.length_cons, length_listedNames]
    omega

/-- As many names are read as were listed if and only if each is a single line. -/
theorem length_listedNames_eq_iff : (names.flatMap listedNames).length = names.length ↔
    ∀ name ∈ names, '\n' ∉ name.toList := by
  induction names with
  | nil => simp
  | cons name names ih =>
    have hle := length_le_listedNames names
    rw [List.flatMap_cons, List.length_append, List.length_cons, length_listedNames,
      List.forall_mem_cons, ← ih, ← List.count_eq_zero]
    omega

theorem flatMap_listedNames (h : ∀ name ∈ names, '\n' ∉ name.toList) :
    names.flatMap listedNames = names := by
  induction names with
  | nil => rfl
  | cons name names ih =>
    obtain ⟨hname, hnames⟩ := List.forall_mem_cons.1 h
    rw [List.flatMap_cons, listedNames_of_notMem hname, ih hnames]
    rfl

namespace FetchItem

/-- The files of an input are called by single lines if and only if the input is listable. -/
theorem isListable_iff (h : ofInput i = .ok files) :
    (∀ f ∈ files, '\n' ∉ f.filename.toList) ↔ i.IsListable := by
  have hline : ∀ s, Url.EndsIn i.value s → '\n' ∉ (String.ofList s).toList := by
    intro s hs
    rw [String.toList_ofList]
    exact hs.isSegment.unbroken
  have hdownload : '\n' ∉ (urlBasename i.value).toList ↔
      (∃ s, Url.EndsIn i.value s) ∨ '\n' ∉ (basename i.value).toList :=
    urlBasename_iff (P := fun name => '\n' ∉ name.toList) hline
  rcases ofInput_cases h with ⟨hkind, rfl⟩ | ⟨hkind, rfl⟩ | ⟨hkind, rfl⟩ | ⟨hkind, rfl⟩
  · simp only [Input.IsListable, hkind, List.forall_mem_singleton]
    exact hdownload
  · simp only [Input.IsListable, hkind, List.forall_mem_singleton]
    rfl
  · simp only [Input.IsListable, hkind, List.forall_mem_singleton]
    rfl
  · simp only [Input.IsListable, hkind, List.forall_mem_map]
    rfl

theorem forall_isListable_iff (h : ofInputs r.inputs = .ok items) :
    (∀ f ∈ items, '\n' ∉ f.filename.toList) ↔ ∀ i ∈ r.inputs, i.IsListable := by
  obtain ⟨files, hfiles, rfl⟩ := eq_flatMap_of_ofInputs h
  constructor
  · intro hall i hi
    refine (isListable_iff (hfiles i hi)).1 ?_
    intro f hf
    exact hall f (List.mem_flatMap.2 ⟨i, hi, hf⟩)
  · intro hall f hf
    obtain ⟨i, hi, hf⟩ := List.mem_flatMap.1 hf
    exact (isListable_iff (hfiles i hi)).2 (hall i hi) f hf

end FetchItem

namespace ShellWorkflow

/-- The items at the place of a partition. -/
def share (w : ShellWorkflow) (items : List FetchItem) (n : Nat) : List FetchItem :=
  items.extract (n * w.parallel.effectiveSize) ((n + 1) * w.parallel.effectiveSize)

/-- What the tasks of a command are told about their files. -/
structure IsListed (r : Recipe) (w : ShellWorkflow) (items : List FetchItem) (k : Nat)
    (s : Stage) : Prop where
  /-- There is a task for each partition, which counts the items at its place. -/
  planned : ∃ ps, Partition.plan (items.map FetchItem.source) w.parallel.effectiveSize
      (commandStageName k) = .ok ps ∧ s.tasks.length = ps.length ∧
    ∀ n p, ps[n]? = some p → p.files = (share w items n).map FetchItem.source ∧
      Table.find? "num_files" p.counts = some (share w items n).length
  /-- A task's list is read as the names of its items exactly if each of them is found under its
  source and called by a single line; the number of names depends on the lines alone. -/
  each : ∀ n t, s.tasks[n]? = some t → t.name = partitionName k n ∧
    ∃ names, t.listed? = some names ∧
      (names = (share w items n).map FetchItem.filename ↔
        ∀ i ∈ share w items n, found items i.source = i ∧ '\n' ∉ i.filename.toList) ∧
      (names.length = (share w items n).length ↔
        ∀ i ∈ share w items n, '\n' ∉ (found items i.source).filename.toList)
  /-- All are read so exactly if no two items have one source and every input is listable. -/
  all : (∀ n t, s.tasks[n]? = some t →
      t.listed? = some ((share w items n).map FetchItem.filename)) ↔
    (items.map FetchItem.source).Nodup ∧ ∀ i ∈ r.inputs, i.IsListable

theorem share_eq : share w items n =
    (items.drop (n * w.parallel.effectiveSize)).take w.parallel.effectiveSize := by
  have hwidth : (n + 1) * w.parallel.effectiveSize - n * w.parallel.effectiveSize =
      w.parallel.effectiveSize := by
    rw [Nat.succ_mul]
    omega
  rw [share, List.extract_eq_take_drop, hwidth]

theorem mem_of_mem_share {f : FetchItem} (h : f ∈ share w items n) : f ∈ items := by
  rw [share_eq] at h
  exact List.mem_of_mem_drop (List.mem_of_mem_take h)

theorem one_le_effectiveSize (p : Parallel) : 1 ≤ p.effectiveSize := by
  have hone := Partition.one_le_clamp p.effectiveSize
  rw [← clamp_effectiveSize p]
  exact hone

/-- Every item is at the place of a partition. -/
theorem exists_mem_share {f : FetchItem} (h : f ∈ items) :
    ∃ n, n * w.parallel.effectiveSize < items.length ∧ f ∈ share w items n := by
  have hsize := one_le_effectiveSize w.parallel
  have hall := Partition.flatten_chunks hsize (Nat.le_refl items.length)
  rw [← hall] at h
  obtain ⟨c, hc, hf⟩ := List.mem_flatten.1 h
  obtain ⟨n, hn⟩ := List.mem_iff_getElem?.1 hc
  rw [Partition.getElem?_chunks hsize (Nat.le_refl _)] at hn
  split at hn
  · next hlt =>
    refine ⟨n, hlt, ?_⟩
    rw [share_eq, Option.some.inj hn]
    exact hf
  · cases hn

theorem share_ne_nil (h : n * w.parallel.effectiveSize < items.length) :
    share w items n ≠ [] := by
  have hsize := one_le_effectiveSize w.parallel
  have hpos : 0 < (share w items n).length := by
    rw [share_eq, List.length_take, List.length_drop]
    omega
  exact List.length_pos_iff.1 hpos

/-- The task at a place runs the command on what is found under the sources of its items. -/
theorem getElem?_commandTasks : (commandTasks r w items k command)[n]? =
    if n * w.parallel.effectiveSize < items.length then
      some (fileTask r ⟨r.id, k, n⟩ ((share w items n).map fun i => found items i.source) command)
    else none := by
  have hfuel : (items.map FetchItem.source).length ≤ items.length :=
    Nat.le_of_eq (List.length_map _)
  rw [commandTasks, List.getElem?_mapIdx, clamp_effectiveSize,
    Partition.getElem?_chunks (one_le_effectiveSize w.parallel) hfuel, List.length_map]
  by_cases hlt : n * w.parallel.effectiveSize < items.length
  · rw [if_pos hlt, if_pos hlt, Option.map_some, ← List.map_drop, ← List.map_take, ← share_eq,
      List.map_map]
    rfl
  · rw [if_neg hlt, if_neg hlt]
    rfl

theorem listed?_fileTask {a : PartitionAddress} (h : files ≠ []) :
    Task.listed? { fileTask r a files command with dependencies := ds } =
      some ((files.map FetchItem.filename).flatMap listedNames) := by
  have henv : (fileTask r a files command).container.env =
      Table.ofList [("RECIPE_ID", a.recipeId), ("CMD_INDEX", toString a.command),
        ("PARTITION_ID", toString a.partition), ("INPUT_DIR", a.inputDir),
        ("OUTPUT_DIR", a.outputDir),
        ("PARTITION_FILES", "\n".intercalate (files.map FetchItem.filename))] := by
    rw [fileTask]
  have hnames : files.map FetchItem.filename ≠ [] := by simpa using h
  rw [Task.listed?, Task.env?, henv, Table.find?_ofList, ← listedNames_intercalate hnames]
  simp

/-- Names that are read back are those of the items themselves. -/
theorem flatMap_listedNames_iff (h : (items.map FetchItem.filename).Nodup)
    (hfiles : ∀ f ∈ files, f ∈ items) :
    (files.map fun i => (found items i.source).filename).flatMap listedNames =
        files.map FetchItem.filename ↔
      ∀ i ∈ files, found items i.source = i ∧ '\n' ∉ i.filename.toList := by
  constructor
  · intro heq
    have hlines : ∀ name ∈ files.map fun i => (found items i.source).filename,
        '\n' ∉ name.toList := by
      refine length_listedNames_eq_iff.1 ?_
      rw [heq, List.length_map, List.length_map]
    rw [flatMap_listedNames hlines] at heq
    intro i hi
    have hname := List.map_inj_left.1 heq i hi
    have hfound : found items i.source = i :=
      List.inj_on_of_nodup_map h (found_spec (hfiles i hi)).1 (hfiles i hi) hname
    have hline := hlines _ (List.mem_map.2 ⟨i, hi, rfl⟩)
    rw [hfound] at hline
    exact ⟨hfound, hline⟩
  · intro hall
    have hnames : (files.map fun i => (found items i.source).filename) =
        files.map FetchItem.filename := by
      apply List.map_congr_left
      intro i hi
      rw [(hall i hi).1]
    rw [hnames]
    refine flatMap_listedNames ?_
    intro name hname
    obtain ⟨i, hi, rfl⟩ := List.mem_map.1 hname
    exact (hall i hi).2

theorem getElem?_tasks : (Graph.behind ds (commandStage r w items k command)).tasks[n]? =
    if n * w.parallel.effectiveSize < items.length then
      some { fileTask r ⟨r.id, k, n⟩ ((share w items n).map fun i => found items i.source) command
        with dependencies := ds }
    else none := by
  rw [Graph.behind, commandStage, List.getElem?_map, getElem?_commandTasks]
  split
  · rfl
  · rfl

/-- What is read from the list of the task at a place. -/
theorem listed?_of_getElem?
    (h : (Graph.behind ds (commandStage r w items k command)).tasks[n]? = some t) :
    t.name = partitionName k n ∧
      t.listed? = some (((share w items n).map fun i => (found items i.source).filename).flatMap
        listedNames) := by
  rw [getElem?_tasks] at h
  split at h
  · next hlt =>
    cases h
    have hfiles : (share w items n).map (fun i => found items i.source) ≠ [] := by
      simpa using share_ne_nil hlt
    refine ⟨rfl, ?_⟩
    rw [listed?_fileTask hfiles, List.map_map]
    rfl
  · cases h

/-- The partitions of the items' sources, each with what it counts. -/
theorem exists_plan (h : items ≠ []) (function : String) :
    ∃ ps, Partition.plan (items.map FetchItem.source) w.parallel.effectiveSize function = .ok ps ∧
      ps.length = width w items ∧
      ∀ n p, ps[n]? = some p → p.files = (share w items n).map FetchItem.source ∧
        Table.find? "num_files" p.counts = some (share w items n).length := by
  have hsources : items.map FetchItem.source ≠ [] := by simpa using h
  have hplan := Partition.plan_of_ne_nil hsources w.parallel.effectiveSize function
  have hcut := @Partition.isPlan_cut _ (items.map FetchItem.source) function
    (Partition.one_le_clamp w.parallel.effectiveSize)
  refine ⟨_, hplan, ?_, ?_⟩
  · rw [hcut.covers, width_eq, List.length_map, clamp_effectiveSize]
  · intro n p hp
    have hfiles : p.files = (share w items n).map FetchItem.source := by
      rw [hcut.placed n p hp, clamp_effectiveSize, share, List.extract_eq_take_drop,
        List.extract_eq_take_drop, List.map_take, List.map_drop]
    have hcount := (hcut.described p (List.mem_of_getElem? hp)).1
    rw [hfiles, List.length_map] at hcount
    exact ⟨hfiles, hcount⟩

theorem isListed_commandStage (hnodup : (items.map FetchItem.filename).Nodup) (hsome : items ≠ [])
    (hitems : FetchItem.ofInputs r.inputs = .ok items) (ds : List String) (k : Nat)
    (command : String) :
    IsListed r w items k (Graph.behind ds (commandStage r w items k command)) := by
  have hread : ∀ n, ((share w items n).map fun i => (found items i.source).filename).flatMap
      listedNames = (share w items n).map FetchItem.filename ↔
        ∀ i ∈ share w items n, found items i.source = i ∧ '\n' ∉ i.filename.toList :=
    fun n => flatMap_listedNames_iff hnodup fun f hf => mem_of_mem_share hf
  have htasks : (Graph.behind ds (commandStage r w items k command)).tasks.length =
      width w items := by
    have hnames := congrArg List.length (@names_commandTasks r w items k command)
    simpa [Graph.behind, commandStage] using hnames
  constructor
  · obtain ⟨ps, hplan, hlength, hall⟩ := exists_plan (w := w) hsome (commandStageName k)
    exact ⟨ps, hplan, htasks.trans hlength.symm, hall⟩
  · intro n t ht
    obtain ⟨hname, hlisted⟩ := listed?_of_getElem? ht
    refine ⟨hname, _, hlisted, hread n, ?_⟩
    have hlength := @length_listedNames_eq_iff
      ((share w items n).map fun i => (found items i.source).filename)
    rw [List.length_map, List.forall_mem_map] at hlength
    exact hlength
  · rw [nodup_source_iff (List.Nodup.of_map _ hnodup), ← FetchItem.forall_isListable_iff hitems]
    constructor
    · intro hall
      have hitem : ∀ i ∈ items, found items i.source = i ∧ '\n' ∉ i.filename.toList := by
        intro i hi
        obtain ⟨n, hn, hshare⟩ := exists_mem_share (w := w) hi
        have htask := @getElem?_tasks r w items command ds k n
        rw [if_pos hn] at htask
        obtain ⟨-, hlisted⟩ := listed?_of_getElem? htask
        have hnames := Option.some.inj (hlisted.symm.trans (hall n _ htask))
        exact (hread n).1 hnames i hshare
      exact ⟨fun i hi => (hitem i hi).1, fun i hi => (hitem i hi).2⟩
    · rintro ⟨hself, hlines⟩ n t ht
      obtain ⟨-, hlisted⟩ := listed?_of_getElem? ht
      rw [hlisted, (hread n).2]
      intro i hi
      have hmem := mem_of_mem_share hi
      exact ⟨hself i hmem, hlines i hmem⟩

/-- The tasks of a partitioned recipe read back their lists of files if no two items have one source
and no name holds a line end, and only then. -/
theorem isListed_of_compile (hg : r.compile = .ok g) (hw : r.workflow = .shell w)
    (hpar : w.parallel.enabled = true) (hitems : FetchItem.ofInputs r.inputs = .ok items) :
    ∀ s ∈ g.stages, ∀ k, s.kind = .process k → IsListed r w items k s := by
  obtain ⟨ss, hplan, rfl⟩ := Recipe.compile_planned hg
  cases hplan with
  | sequential hw' hseq =>
    obtain rfl : w = _ := Workflow.shell.inj (hw.symm.trans hw')
    cases hpar.symm.trans hseq
  | visualization hv => cases hw.symm.trans hv
  | partitioned hw' _ hitems' hdistinct hsome _ =>
    obtain rfl : w = _ := Workflow.shell.inj (hw.symm.trans hw')
    obtain rfl : items = _ := Except.ok.inj (hitems.symm.trans hitems')
    intro s hs k hk
    obtain ⟨command, ds, hcommand, rfl⟩ := stage_of_kind hs hk
    have hne : w.commands ≠ [] := List.ne_nil_of_mem (List.mem_of_getElem? hcommand)
    exact isListed_commandStage (FetchItem.nodup_filename hdistinct) (hsome.resolve_right hne)
      hitems ds k command

/-- Three files that are seen in place, in partitions of two. -/
theorem isListed_of_compile_paired : ∃ g items, Recipe.paired.compile = .ok g ∧
    FetchItem.ofInputs Recipe.paired.inputs = .ok items ∧
    ∀ s ∈ g.stages, ∀ k, s.kind = .process k →
      IsListed Recipe.paired ⟨"d/recipe.sh", ["gzip $INPUT_FILE", "wc $INPUT_FILE"], ⟨true, some 2⟩⟩
        items k s := by
  obtain ⟨g, hg⟩ := Recipe.exists_compile_paired
  exact ⟨g, _, hg, rfl, isListed_of_compile hg rfl rfl rfl⟩

/-- Two names are read where one file is listed, since its name holds a line end. -/
theorem staging_listed_apart :
    ((staging [⟨.fileSystem, "/data/a\nb.nc", none, []⟩]).compile.toOption.bind
      (·.task? (partitionName 0 0))).bind Task.listed? = some ["a", "b.nc"] ∧
    (FetchItem.ofInputs [⟨.fileSystem, "/data/a\nb.nc", none, []⟩]).map
      (·.map FetchItem.filename) = .ok ["a\nb.nc"] := by
  decide +kernel

end ShellWorkflow

end RecipeFlow
