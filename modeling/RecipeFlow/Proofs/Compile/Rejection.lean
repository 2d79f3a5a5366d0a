import RecipeFlow.Files.Tree
import RecipeFlow.Proofs.Compile.Coverage
import RecipeFlow.Proofs.Recipe.Prepared

/-! Which recipes do not compile, and what is then reported. -/
namespace RecipeFlow

namespace FetchItem

variable {i : Input} {is : List Input} {items seen : List FetchItem} {first second : FetchItem}

/-- The second one is the first of all items to have the name of an earlier one, the first one. -/
def Clash (items : List FetchItem) (first second : FetchItem) : Prop :=
  ∃ pre post, items = pre ++ second :: post ∧ (pre.map filename).Nodup ∧ first ∈ pre ∧
    first.filename = second.filename

theorem clashFrom?_eq_some (hseen : (seen.map filename).Nodup) :
    clashFrom? seen items = some (first, second) ↔ ∃ pre post, items = pre ++ second :: post ∧
      ((pre.reverse ++ seen).map filename).Nodup ∧ first ∈ pre.reverse ++ seen ∧
        first.filename = second.filename := by
  induction items generalizing seen with
  | nil => simp [clashFrom?]
  | cons i items ih =>
    -- What has been passed is kept in reverse, so the item stays where it is in the whole list.
    have hmove : ∀ pre : List FetchItem, (i :: pre).reverse ++ seen = pre.reverse ++ i :: seen := by
      simp
    rw [clashFrom?]
    cases hfind : seen.find? (·.filename = i.filename) with
    | some j =>
      have hj : j ∈ seen := List.mem_of_find?_eq_some hfind
      have hname : j.filename = i.filename := by simpa using List.find?_some hfind
      constructor
      · intro h
        cases h
        exact ⟨[], items, rfl, hseen, hj, hname⟩
      · rintro ⟨pre, post, heq, hnodup, hfirst, hsame⟩
        cases pre with
        | nil =>
          cases heq
          rw [List.inj_on_of_nodup_map hseen hfirst hj (hsame.trans hname.symm)]
        | cons p pre =>
          -- A later clash is not the first one.
          cases heq
          rw [hmove, List.map_append, List.nodup_append, List.map_cons, List.nodup_cons] at hnodup
          exact absurd (List.mem_map.2 ⟨j, hj, hname⟩) hnodup.2.1.1
    | none =>
      have hi : ∀ j ∈ seen, j.filename ≠ i.filename := by
        simpa [List.find?_eq_none] using hfind
      have hseen' : ((i :: seen).map filename).Nodup := by
        rw [List.map_cons, List.nodup_cons]
        refine ⟨?_, hseen⟩
        rintro hmem
        obtain ⟨j, hj, hname⟩ := List.mem_map.1 hmem
        exact hi j hj hname
      dsimp only
      rw [ih hseen']
      constructor
      · rintro ⟨pre, post, rfl, hnodup, hfirst, hsame⟩
        rw [← hmove] at hnodup hfirst
        exact ⟨i :: pre, post, rfl, hnodup, hfirst, hsame⟩
      · rintro ⟨pre, post, heq, hnodup, hfirst, hsame⟩
        cases pre with
        | nil =>
          cases heq
          exact absurd hsame (hi first hfirst)
        | cons p pre =>
          cases heq
          rw [hmove] at hnodup hfirst
          exact ⟨pre, post, rfl, hnodup, hfirst, hsame⟩

theorem clash_iff : Clash items first second ↔ clashFrom? [] items = some (first, second) := by
  have hnil : (([] : List FetchItem).map filename).Nodup := List.nodup_nil
  rw [clashFrom?_eq_some hnil]
  simp only [Clash, List.append_nil, List.map_reverse, List.nodup_reverse, List.mem_reverse]

theorem checkDistinct_eq_ok (h : (items.map filename).Nodup) : checkDistinct items = .ok () := by
  have hnone : clashFrom? [] items = none := by
    refine clashFrom?_eq_none.2 ⟨h, ?_⟩
    intro i _ j hj
    cases hj
  rw [checkDistinct, hnone]

/-- Items that do not all have names of their own clash. -/
theorem exists_clash (h : ¬ (items.map filename).Nodup) :
    ∃ first second, Clash items first second := by
  cases hclash : clashFrom? [] items with
  | none => exact absurd (clashFrom?_eq_none.1 hclash).1 h
  | some p => exact ⟨p.1, p.2, clash_iff.2 hclash⟩

theorem ofInput_unknown (h : i.kind.isKnown = false) :
    ofInput i = .error (.unsupported i.kind.text i.value) := by
  obtain ⟨kind, value, pattern, resolved⟩ := i
  cases kind with
  | unknown text => rfl
  | url | pvcMount | fileSystem | dataone => cases h

/-- An input of a known kind stands for some files, if it has been resolved. -/
theorem ofInput_known (h : i.kind.isKnown = true) (hr : i.IsResolved) :
    ∃ items, items ≠ [] ∧ ofInput i = .ok items := by
  obtain ⟨kind, value, pattern, resolved⟩ := i
  cases kind with
  | unknown text => cases h
  | dataone =>
    have hsome : resolved.isEmpty = false := by
      simpa using hr rfl
    refine ⟨resolved.map fun o => .download o.url o.filename, ?_, ?_⟩
    · simpa using hr rfl
    · simp [ofInput, hsome]
  | url | pvcMount | fileSystem => exact ⟨_, List.cons_ne_nil _ _, rfl⟩

theorem ofInputs_cons : ofInputs (i :: is) = do
    let xs ← ofInput i
    let ys ← ofInputs is
    return xs ++ ys := by
  rw [ofInputs, List.mapM_cons, ofInputs]
  cases ofInput i with
  | error f => rfl
  | ok xs =>
    cases is.mapM ofInput with
    | error f => rfl
    | ok ys => rfl

theorem ofInputs_unknown (hr : ∀ i ∈ is, i.IsResolved)
    (h : is.find? (fun i => !i.kind.isKnown) = some i) :
    ofInputs is = .error (.unsupported i.kind.text i.value) := by
  induction is with
  | nil => cases h
  | cons j is ih =>
    obtain ⟨hj, his⟩ := List.forall_mem_cons.1 hr
    rw [ofInputs_cons]
    cases hknown : j.kind.isKnown with
    | false =>
      rw [List.find?_cons_of_pos (by simp [hknown])] at h
      cases h
      rw [ofInput_unknown hknown]
      rfl
    | true =>
      rw [List.find?_cons_of_neg (by simp [hknown])] at h
      obtain ⟨items, -, hitems⟩ := ofInput_known hknown hj
      rw [hitems, ih his h]
      rfl

theorem ofInputs_known (hr : ∀ i ∈ is, i.IsResolved)
    (h : is.find? (fun i => !i.kind.isKnown) = none) :
    ∃ items, ofInputs is = .ok items ∧ (is ≠ [] → items ≠ []) := by
  induction is with
  | nil => exact ⟨[], rfl, fun h => absurd rfl h⟩
  | cons i is ih =>
    obtain ⟨hi, his⟩ := List.forall_mem_cons.1 hr
    rw [List.find?_eq_none, List.forall_mem_cons] at h
    obtain ⟨xs, hxs, hok⟩ := ofInput_known (by simpa using h.1) hi
    obtain ⟨ys, hys, -⟩ := ih his (List.find?_eq_none.2 h.2)
    refine ⟨xs ++ ys, ?_, fun _ hnil => hxs (List.append_eq_nil_iff.1 hnil).1⟩
    rw [ofInputs_cons, hok, hys]
    rfl

end FetchItem

namespace PublishTask

variable {r : Recipe} {source : PublishSource}

theorem make_of_dataone (h : r.output = .dataone) : make r source =
    .error (.invalid Code.recipeUnsupportedOutput "publishing to DataONE is not supported yet"
      (some "output.type")) := by
  rw [make, h]
  rfl

theorem exists_make (source : PublishSource) (h : r.output ≠ .dataone) :
    ∃ publish, make r source = .ok publish := by
  cases hout : r.output with
  | dataone => exact absurd hout h
  | pvc | temporary =>
    rw [make, hout]
    exact ⟨_, rfl⟩

end PublishTask

namespace Recipe

/-- The first input whose kind is not known. -/
def firstUnknown? (r : Recipe) : Option Input :=
  r.inputs.find? fun i => !i.kind.isKnown

/-- Why a recipe does not compile. Each reason leaves out those that come before it. -/
inductive Rejected (r : Recipe) : Fault → Prop
  | unknownInput {i : Input} (h : r.firstUnknown? = some i) :
      Rejected r (.unsupported i.kind.text i.value)
  | sharedName {w : ShellWorkflow} {items : List FetchItem} {first second : FetchItem}
      (hknown : r.firstUnknown? = none) (hw : r.workflow = .shell w)
      (hpar : w.parallel.enabled = true) (hitems : FetchItem.ofInputs r.inputs = .ok items)
      (hclash : FetchItem.Clash items first second) :
      Rejected r (.invalid Code.duplicateFilename ("inputs " ++ first.source ++ " and " ++
        second.source ++ " both resolve to file name '" ++ second.filename ++ "'")
          (some "input.params"))
  | shellOutput {w : ShellWorkflow} (hknown : r.firstUnknown? = none) (hw : r.workflow = .shell w)
      (hnames : w.parallel.enabled = true → ∀ items, FetchItem.ofInputs r.inputs = .ok items →
        (items.map FetchItem.filename).Nodup) (hout : r.output = .dataone) :
      Rejected r (.invalid Code.recipeUnsupportedOutput
        "publishing to DataONE is not supported yet" (some "output.type"))
  | tilingOutput {v : Visualization} (hknown : r.firstUnknown? = none)
      (hv : r.workflow = .visualization v) (hout : r.output ≠ .pvc) :
      Rejected r (.invalid Code.recipeUnsupportedOutput
        ("visualization workflows require pvc output, got " ++ r.output.text)
          (some "output.type"))
  | tilingInput {v : Visualization} {i : Input} {rest : List Input}
      (hknown : r.firstUnknown? = none) (hv : r.workflow = .visualization v)
      (hout : r.output = .pvc) (hfirst : r.inputs = i :: rest) (hkind : i.kind ≠ .url) :
      Rejected r (.unsupported i.kind.text i.value)

variable {r : Recipe} {w : ShellWorkflow} {v : Visualization} {items : List FetchItem}
  {source : PublishSource} {f : Fault}

/-- Where files are found, and names are apart if they have to be, only publishing can fail. -/
theorem compile_shell (hitems : FetchItem.ofInputs r.inputs = .ok items) (hsome : items ≠ [])
    (hw : r.workflow = .shell w)
    (hnames : w.parallel.enabled = true → FetchItem.checkDistinct items = .ok ()) :
    ∃ (source : PublishSource) (graph : Task → Graph), r.compile = do
      let publish ← PublishTask.make r source
      return graph publish := by
  rw [compile, hitems, hw]
  cases hpar : w.parallel.enabled with
  | true =>
    refine ⟨.partitions (w.commands.length - 1), fun publish =>
      (ShellWorkflow.emptyGraph r).appendAll (w.partitionedStages r items publish), ?_⟩
    rw [← ShellWorkflow.partitioned_eq (hnames hpar) (.inl hsome)]
    exact if_pos hpar
  | false => exact ⟨_, _, if_neg (ne_true_of_eq_false hpar)⟩

theorem compile_visualization (hitems : FetchItem.ofInputs r.inputs = .ok items)
    (hv : r.workflow = .visualization v) : r.compile = v.graph r := by
  rw [compile, hitems, hv]
  rfl

theorem Rejected.compile_eq (hready : r.IsReady) (h : r.Rejected f) : r.compile = .error f := by
  cases h with
  | unknownInput h =>
    rw [compile, FetchItem.ofInputs_unknown hready.resolved h]
    rfl
  | sharedName hknown hw hpar hitems hclash =>
    rw [compile, hitems, hw]
    show ite _ _ _ = _
    rw [if_pos hpar, ShellWorkflow.partitioned, FetchItem.checkDistinct,
      FetchItem.clash_iff.1 hclash]
    rfl
  | shellOutput hknown hw hnames hout =>
    obtain ⟨items, hitems, hsome⟩ := FetchItem.ofInputs_known hready.resolved hknown
    have hdistinct : ∀ hpar, FetchItem.checkDistinct items = .ok () :=
      fun hpar => FetchItem.checkDistinct_eq_ok (hnames hpar items hitems)
    obtain ⟨source, graph, hcompile⟩ := compile_shell hitems (hsome hready.inputs) hw hdistinct
    rw [hcompile, PublishTask.make_of_dataone hout]
    rfl
  | tilingOutput hknown hv hout =>
    obtain ⟨items, hitems, -⟩ := FetchItem.ofInputs_known hready.resolved hknown
    rw [compile_visualization hitems hv, Visualization.graph, if_pos hout]
  | tilingInput hknown hv hout hfirst hkind =>
    obtain ⟨items, hitems, -⟩ := FetchItem.ofInputs_known hready.resolved hknown
    rw [compile_visualization hitems hv, Visualization.graph, if_neg (not_not_intro hout), hfirst]
    exact if_pos hkind

theorem Rejected.code_mem (h : r.Rejected f) : f.code ∈
    [Code.unsupportedInput, Code.duplicateFilename, Code.recipeUnsupportedOutput] := by
  cases h with
  | unknownInput | tilingInput => exact List.mem_cons_self
  | sharedName => exact List.mem_cons_of_mem _ List.mem_cons_self
  | shellOutput | tilingOutput =>
    exact List.mem_cons_of_mem _ (List.mem_cons_of_mem _ List.mem_cons_self)

/-- A recipe that has no reason not to compile does. -/
theorem rejected_or_compile (hready : r.IsReady) :
    (∃ f, r.Rejected f) ∨ ∃ g, r.compile = .ok g := by
  cases hknown : r.firstUnknown? with
  | some i => exact .inl ⟨_, .unknownInput hknown⟩
  | none =>
    obtain ⟨items, hitems, hsome⟩ := FetchItem.ofInputs_known hready.resolved hknown
    cases hw : r.workflow with
    | shell w =>
      by_cases hclash : w.parallel.enabled = true ∧ ¬ (items.map FetchItem.filename).Nodup
      · obtain ⟨first, second, hclash'⟩ := FetchItem.exists_clash hclash.2
        exact .inl ⟨_, .sharedName hknown hw hclash.1 hitems hclash'⟩
      · have hnames : w.parallel.enabled = true → (items.map FetchItem.filename).Nodup :=
          fun hpar => not_not.1 fun hnot => hclash ⟨hpar, hnot⟩
        by_cases hout : r.output = .dataone
        · refine .inl ⟨_, .shellOutput hknown hw ?_ hout⟩
          intro hpar items' hitems'
          cases hitems.symm.trans hitems'
          exact hnames hpar
        · obtain ⟨source, graph, hcompile⟩ := compile_shell hitems (hsome hready.inputs) hw
            fun hpar => FetchItem.checkDistinct_eq_ok (hnames hpar)
          obtain ⟨publish, hmake⟩ := PublishTask.exists_make source hout
          refine .inr ⟨graph publish, ?_⟩
          rw [hcompile, hmake]
          rfl
    | visualization v =>
      by_cases hout : r.output = .pvc
      · cases hinputs : r.inputs with
        | nil => exact absurd hinputs hready.inputs
        | cons i rest =>
          by_cases hkind : i.kind = .url
          · rw [compile_visualization hitems hw, Visualization.graph,
              if_neg (not_not_intro hout), hinputs]
            exact .inr ⟨_, if_neg (not_not_intro hkind)⟩
          · exact .inl ⟨_, .tilingInput hknown hw hout hinputs hkind⟩
      · exact .inl ⟨_, .tilingOutput hknown hw hout⟩

theorem IsReady.rejected_iff (hready : r.IsReady) : r.Rejected f ↔ r.compile = .error f := by
  constructor
  · exact fun hf => hf.compile_eq hready
  · intro hf
    rcases rejected_or_compile hready with ⟨f', hf'⟩ | ⟨g, hg⟩
    · cases hf.symm.trans (hf'.compile_eq hready)
      exact hf'
    · cases hf.symm.trans hg

/-- What is rendered of a directory fails with its recipe's loading, or for a reason that the loaded
recipe has. -/
theorem runs_render_failed {files : Files} {resolvable : Bool} {c : EngineConfig} {dir : String}
    {es : List Exchange} : Dialogue.Runs (render files resolvable c dir) es (.failed f) ↔
      Dialogue.Runs (loadResolved files resolvable dir) es (.failed f) ∨
      ∃ r, Dialogue.Runs (loadResolved files resolvable dir) es (.done r) ∧ r.Rejected f := by
  have hcompile : ∀ (r : Recipe) post, Dialogue.Runs (do
      return Manifest.ofGraph (← Dialogue.ofExcept r.compile) c) post (.failed f) ↔
        post = [] ∧ r.compile = .error f := by
    intro r post
    cases r.compile with
    | error f' => simp [Dialogue.ofExcept, Dialogue.runs_bind, eq_comm]
    | ok g => simp [Dialogue.ofExcept, Dialogue.runs_bind]
  rw [render, Dialogue.runs_bind]
  simp only [hcompile]
  constructor
  · rintro (⟨r, pre, post, rfl, hload, rfl, hf⟩ | ⟨f', ⟨⟩, hload⟩ | ⟨⟨⟩, -⟩)
    · rw [List.append_nil]
      exact .inr ⟨r, hload, (isPrepared_of_loadResolved hload).isReady.rejected_iff.2 hf⟩
    · exact .inl hload
  · rintro (hload | ⟨r, hload, hf⟩)
    · exact .inr (.inl ⟨f, rfl, hload⟩)
    · have hf := (isPrepared_of_loadResolved hload).isReady.rejected_iff.1 hf
      exact .inl ⟨r, es, [], (List.append_nil es).symm, hload, rfl, hf⟩

/-- A prepared recipe fails to compile for these reasons only, of which the first is reported; what
loading and resolving have made sure of is never reported. -/
theorem compile_eq_error_iff (h : r.IsPrepared) : (∀ f, r.compile = .error f ↔ r.Rejected f) ∧
    ∀ f, r.compile = .error f →
      f.code ∉ [Code.recipeEmptyInput, Code.emptyPartitionInput, Code.unresolved] := by
  have hiff : ∀ f, r.compile = .error f ↔ r.Rejected f := fun f => h.isReady.rejected_iff.symm
  have hother : ∀ code ∈ [Code.unsupportedInput, Code.duplicateFilename,
      Code.recipeUnsupportedOutput],
      code ∉ [Code.recipeEmptyInput, Code.emptyPartitionInput, Code.unresolved] := by
    decide
  exact ⟨hiff, fun f hf => hother _ ((hiff f).1 hf).code_mem⟩

/-- A recipe's directory with two inputs, of which one is a dataset. -/
def mixedFiles : FileTree :=
  .directory [("d", .directory [
    ("meta.yml", .file (some ("name: r\ninput:\n  params:\n  - type: dataone\n    value: ds-1\n" ++
      "  - type: file_system\n    value: /data/a.nc\nworkflow:\n  type: shell\n" ++
      "  parallel:\n    enabled: true\n"))),
    ("recipe.sh", .file (some "gzip $INPUT_FILE\n"))])]

/-- The recipe of `mixedFiles`, whose dataset was resolved to some files. -/
def mixed (objects : List DataObject) : Recipe where
  name := "r"
  id := "r"
  image := none
  inputs := [⟨.dataone, "ds-1", none, objects⟩, ⟨.fileSystem, "/data/a.nc", none, []⟩]
  output := .pvc
  workflow := .shell ⟨"d/recipe.sh", ["gzip $INPUT_FILE"], ⟨true, none⟩⟩
  directory := "d"

/-- A file of a dataset that has the name of the other input. -/
def mixedObject : DataObject :=
  ⟨"urn-1", "https://node.example/v2/object/urn-1", "a.nc", "", 0, ""⟩

theorem isPrepared_mixed : (mixed [mixedObject]).IsPrepared := by
  have hload : ofDirectory mixedFiles.files "d" = .ok (mixed []) := by decide +kernel
  obtain ⟨text, htext⟩ := exists_ofText hload
  exact ⟨mixedFiles.files, "d", text, mixed [], [⟨.list "ds-1", .ok [mixedObject]⟩], htext,
    .ask (.list "ds-1") (.ok [mixedObject]) (.done _)⟩

theorem compile_eq_error_iff_mixed : (mixed [mixedObject]).IsPrepared ∧
    ∃ f, (mixed [mixedObject]).compile = .error f ∧ (mixed [mixedObject]).Rejected f ∧
      f.code = Code.duplicateFilename := by
  have hcompile : (mixed [mixedObject]).compile = .error (.invalid Code.duplicateFilename
      ("inputs https://node.example/v2/object/urn-1 and /data/a.nc both resolve to file name " ++
        "'a.nc'") (some "input.params")) := by
    decide +kernel
  exact ⟨isPrepared_mixed, _, hcompile,
    ((compile_eq_error_iff isPrepared_mixed).1 _).1 hcompile, rfl⟩

end Recipe

end RecipeFlow
