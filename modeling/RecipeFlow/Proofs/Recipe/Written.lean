import RecipeFlow.Proofs.Recipe.Writable

/-! A document is read back as it was from whatever means what is written of it. -/
namespace RecipeFlow.RecipeDocument

open Yaml Schema

variable {n : Node} {t : Tree} {i : Input} {is : List Input} {p : Parallel} {d : RecipeDocument}
  {o : Output} {w : WorkflowSection} {α : Type} {s name : String} {write : α → Tree} {v : Option α}

/-! What is written is the meaning of some node. -/

theorem forall_mem_optional {P : String × Tree → Prop} (h : ∀ a, v = some a → P (name, write a)) :
    ∀ m ∈ optional name write v, P m := by
  cases v with
  | none => rintro m ⟨⟩
  | some a =>
    intro m hm
    obtain rfl := List.mem_singleton.1 hm
    exact h a rfl

theorem names_optional : ((optional name write v).map Prod.fst).Sublist [name] := by
  cases v with
  | none => exact List.nil_sublist _
  | some a => exact List.Sublist.refl _

theorem isMeant_writeInput (i : Input) : (writeInput i).IsMeant := by
  refine Tree.isMeant_record
    (List.forall_mem_append.2 ⟨?_, forall_mem_optional fun x _ => Tree.isMeant_text x⟩)
  simp [Tree.isMeant_text]

theorem isMeant_writeParallel (hp : p.IsWritable) : (writeParallel p).IsMeant := by
  refine Tree.isMeant_record (List.forall_mem_append.2 ⟨?_, forall_mem_optional fun k hk => ?_⟩)
  · simp [Tree.isMeant_text, Tree.isMeant_bool]
  · exact Tree.isMeant_int (hp k hk).1 (hp k hk).2

theorem isMeant_writeWorkflow (hw : w.IsWritable) : (writeWorkflow w).IsMeant := by
  cases w with
  | shell file p =>
    exact Tree.isMeant_record (by simp [Tree.isMeant_text, isMeant_writeParallel (p := p) hw])
  | visualization size file =>
    refine Tree.isMeant_record
      (List.forall_mem_append.2 ⟨?_, forall_mem_optional fun x _ => Tree.isMeant_text x⟩)
    have hsize : size < Nat.pow 2 64 := Nat.lt_trans hw (by decide)
    simp [Tree.isMeant_text, Tree.isMeant_natural hsize]

theorem isMeant_toTree (hd : d.IsWritable) : d.toTree.IsMeant := by
  have hinputs : (Tree.sequence (d.inputs.map writeInput)).IsMeant := by
    simp [Tree.isMeant_sequence_iff, isMeant_writeInput]
  have hworkflow := isMeant_writeWorkflow hd.workflow
  refine Tree.isMeant_record (List.forall_mem_append.2 ⟨List.forall_mem_append.2
    ⟨?_, forall_mem_optional fun x _ => Tree.isMeant_text x⟩, ?_⟩)
  · simp [Tree.isMeant_text]
  · simp [hworkflow, Tree.isMeant_record, Tree.isMeant_text, hinputs]

/-! Reading what is written. -/

/-- Fills in what an input has for a field. -/
def fillInput (i : Input) (d : InputDraft) (field : String) : InputDraft :=
  match field with
  | "type" => { d with kind := some i.kind }
  | "value" => { d with value := some i.value }
  | _ => { d with filename := i.filename }

theorem readInput_of_means (hi : i.IsWritable) (h : n.Means (writeInput i)) :
    readInput n = .ok i := by
  obtain ⟨hkind, hresolved⟩ := hi
  refine bind_eq_ok.2 ⟨_, record_of_means (fillInput i) h ?_ ?_ (by decide) ?_, ?_⟩
  · refine List.forall_mem_append.2 ⟨?_, forall_mem_optional ?_⟩
    · simp only [List.forall_mem_cons]
      refine ⟨?_, ?_, by simp⟩
      · intro v hv s
        simp only [text_of_means hv, Except.map, hkind]
        rfl
      · intro v hv s
        simp only [text_of_means hv, Except.map]
        rfl
    · intro x hx v hv s
      simp only [textOrNull_of_means hv, Except.map, ← hx]
      rfl
  · rw [List.map_append]
    exact .append (.refl _) names_optional
  · simp [fillInput]
  · obtain ⟨kind, value, filename, resolved⟩ := i
    cases hresolved
    cases filename <;> rfl

theorem readInputs_of_means (his : ∀ i ∈ is, i.IsWritable)
    (h : n.Means (.record [("params", .sequence (is.map writeInput))])) :
    readInputs n = .ok is := by
  refine bind_eq_ok.2 ⟨_, record_of_means (fun _ _ => some is) h ?_ (.refl _) (by decide) ?_, rfl⟩
  · simp only [List.forall_mem_singleton]
    intro v hv s
    simp only [items_of_means hv fun i hi v => readInput_of_means (his i hi), Except.map]
  · simp

theorem readOutput_of_means (h : n.Means (.record [("type", .text o.text)])) :
    readOutput n = .ok o := by
  obtain ⟨rest, hchoice, hrest⟩ : ∃ rest,
      choice "RecipeOutput" ["pvc", "temporary", "dataone"] n = .ok (o.text, rest) ∧
        rest.Same (.record []) := choice_of_means h (by cases o <;> decide) (by simp)
  rw [readOutput, hchoice]
  obtain ⟨es, l, rfl, hl, hes⟩ := Tree.same_record_iff.1 hrest
  cases o <;> rfl

/-- Fills in what the settings have for a field. -/
def fillParallel (p q : Parallel) (field : String) : Parallel :=
  match field with
  | "enabled" => { q with enabled := p.enabled }
  | "partition_strategy" => q
  | _ => { q with partitionSize := p.partitionSize }

theorem readParallel_of_same (hp : p.IsWritable) (h : t.Same (writeParallel p)) :
    readParallel t = .ok p := by
  rw [readParallel, treeRecord_of_same (fillParallel p) h ?_ ?_ (by decide) ?_]
  · obtain ⟨enabled, size⟩ := p
    cases size <;> rfl
  · refine List.forall_mem_append.2 ⟨?_, forall_mem_optional ?_⟩
    · simp only [List.forall_mem_cons]
      refine ⟨?_, ?_, by simp⟩
      · intro v hv s
        rw [hv.eq_atom]
        rfl
      · intro v hv s
        rw [hv.eq_atom]
        rfl
    · intro k hk v hv s
      have hsize : orNull treeInt (.int k) = .ok p.partitionSize := by
        rw [orNull_eq_ok (treeInt_int (hp k hk).2) (Tree.int_ne_null k), hk]
      rw [hv.eq_atom]
      exact congrArg (Except.map _) hsize
  · rw [List.map_append]
    exact .append (.refl _) names_optional
  · simp [fillParallel]

theorem readShell_of_same {file : String} (hp : p.IsWritable)
    (h : t.Same (.record [("sh_file", .text file), ("parallel", writeParallel p)])) :
    readShell t = .ok (.shell file p) := by
  refine bind_eq_ok.2 ⟨_, treeRecord_of_same
    (fun s field => if field = "sh_file" then (file, s.2) else (s.1, p)) h ?_ (.refl _)
    (by decide) (by simp), rfl⟩
  simp only [List.forall_mem_cons]
  refine ⟨?_, ?_, by simp⟩
  · intro v hv s
    rw [hv.eq_atom]
    rfl
  · intro v hv s
    rw [if_neg (by decide), if_neg (by decide), readParallel_of_same hp hv]
    rfl

theorem readVisualization_of_same {size : Nat} {file : Option String} (hsize : size < Nat.pow 2 32)
    (h : t.Same (.record ([("batch_size", .natural size)] ++ optional "config_file" .text file))) :
    readVisualization t = .ok (.visualization size file) := by
  refine bind_eq_ok.2 ⟨_, treeRecord_of_same
    (fun s field => if field = "batch_size" then (size, s.2) else (s.1, file)) h ?_ ?_
    (by decide) (by simp), ?_⟩
  · refine List.forall_mem_append.2 ⟨?_, forall_mem_optional ?_⟩
    · simp only [List.forall_mem_singleton]
      intro v hv s
      have hcount : treeCount (.natural size) = .ok size := if_pos hsize
      rw [hv.eq_atom]
      exact congrArg (Except.map _) hcount
    · intro x hx v hv s
      rw [hv.eq_atom, hx]
      rfl
  · rw [List.map_append]
    exact .append (.refl _) names_optional
  · cases file <;> rfl

theorem readWorkflow_of_means (hw : w.IsWritable) (h : n.Means (writeWorkflow w)) :
    readWorkflow n = .ok w := by
  cases w with
  | shell file p =>
    obtain ⟨rest, hchoice, hrest⟩ : ∃ rest,
        choice "WorkflowConfig" ["shell", "visualization"] n = .ok ("shell", rest) ∧
          rest.Same (.record [("sh_file", .text file), ("parallel", writeParallel p)]) :=
      choice_of_means h (by decide) (by simp)
    rw [readWorkflow, hchoice]
    exact readShell_of_same hw hrest
  | visualization size file =>
    have htype : "type" ∉ ([("batch_size", Tree.natural size)] ++
        optional "config_file" .text file).map Prod.fst := by
      cases file <;> simp [optional]
    obtain ⟨rest, hchoice, hrest⟩ : ∃ rest,
        choice "WorkflowConfig" ["shell", "visualization"] n = .ok ("visualization", rest) ∧
          rest.Same (.record ([("batch_size", .natural size)] ++
            optional "config_file" .text file)) :=
      choice_of_means h (by decide) htype
    rw [readWorkflow, hchoice]
    exact readVisualization_of_same hw hrest

/-- Fills in what a document has for a section. -/
def fillSection (d : RecipeDocument) (s : Sections) (field : String) : Sections :=
  match field with
  | "name" => { s with name := some d.name }
  | "image" => { s with image := d.image }
  | "input" => { s with inputs := some d.inputs }
  | "output" => { s with output := d.output }
  | _ => { s with workflow := some d.workflow }

/-- A document is read back as it was from whatever means what is written of it. -/
theorem ofNode_of_means (hd : d.IsWritable) (h : n.Means d.toTree) : ofNode n = .ok d := by
  refine bind_eq_ok.2 ⟨_, record_of_means (fillSection d) h ?_ ?_ (by decide) ?_, ?_⟩
  · refine List.forall_mem_append.2
      ⟨List.forall_mem_append.2 ⟨?_, forall_mem_optional ?_⟩, ?_⟩
    · simp only [List.forall_mem_singleton]
      intro v hv s
      simp only [setSection, text_of_means hv, Except.map]
      rfl
    · intro x hx v hv s
      simp only [setSection, textOrNull_of_means hv, Except.map, ← hx]
      rfl
    · simp only [List.forall_mem_cons]
      refine ⟨?_, ?_, ?_, by simp⟩
      · intro v hv s
        simp only [setSection, readInputs_of_means hd.inputs hv, Except.map]
        rfl
      · intro v hv s
        simp only [setSection, readOutput_of_means hv, Except.map]
        rfl
      · intro v hv s
        simp only [setSection, readWorkflow_of_means hd.workflow hv, Except.map]
        rfl
  · rw [List.map_append, List.map_append]
    exact .append (.append (.refl _) names_optional) (.refl _)
  · simp [fillSection]
  · obtain ⟨name, image, inputs, output, workflow⟩ := d
    cases image <;> rfl

theorem ofText_eq_ok :
    ofText s = .ok d ↔ (document s).2 = true ∧ ofNode (document s).1 = .ok d := by
  rw [ofText]
  generalize document s = r
  obtain ⟨root, whole⟩ := r
  dsimp only
  rw [bind_eq_ok]
  constructor
  · rintro ⟨d', hd', h⟩
    split at h
    · next hwhole =>
      cases h
      exact ⟨hwhole, hd'⟩
    · cases h
  · rintro ⟨hwhole, hd⟩
    exact ⟨d, hd, if_pos hwhole⟩

/-- Nothing is lost by writing: what is written of a document can stand as one, and whatever means
it is read as the same document. So writing twice is writing once. -/
theorem written_reads_back (h : ofText s = .ok d) :
    (∃ n : Node, n.tree = .ok d.toTree ∧ ofNode n = .ok d) ∧
      (∀ n : Node, n.Means d.toTree → ofNode n = .ok d) ∧
      ∀ s', (document s').2 = true → (document s').1.Means d.toTree →
        ofText s' = .ok d ∧ (ofText s').map toTree = (ofText s).map toTree := by
  have hd : d.IsWritable := isWritable_of_ofNode (ofText_eq_ok.1 h).2
  refine ⟨?_, fun n => ofNode_of_means hd, fun s' hwhole hmeans => ?_⟩
  · obtain ⟨n, hn⟩ := isMeant_toTree hd
    exact ⟨n, hn, ofNode_of_means hd (Node.means_of_tree hn)⟩
  · have hread : ofText s' = .ok d := ofText_eq_ok.2 ⟨hwhole, ofNode_of_means hd hmeans⟩
    exact ⟨hread, by rw [hread, h]⟩

/-- A recipe with an input of an unknown kind and a strategy that goes by another name, without most
of what may be left out. -/
def mixedText : String :=
  "name: r\ninput:\n params:\n - filename: \"*\"\n   type: tape\n   value: 7\n" ++
    "workflow:\n parallel:\n  partition_strategy: by_file_count\n  partition_size: -2\n" ++
    " type: shell\n"

def mixed : RecipeDocument where
  name := "r"
  image := none
  inputs := [⟨.unknown "tape", "7", some "*", []⟩]
  output := .pvc
  workflow := .shell "recipe.sh" ⟨false, some (-2)⟩

theorem ofText_mixed : ofText mixedText = .ok mixed := by
  have hsome : (ofText mixedText).toOption = some mixed := by decide +kernel
  cases hread : ofText mixedText with
  | ok d =>
    rw [hread] at hsome
    exact congrArg Except.ok (Option.some.inj hsome)
  | error m =>
    rw [hread] at hsome
    cases hsome

theorem written_reads_back_mixed : ofText mixedText = .ok mixed ∧
    (∃ n : Node, n.tree = .ok mixed.toTree ∧ ofNode n = .ok mixed) ∧
      ∀ n : Node, n.Means mixed.toTree → ofNode n = .ok mixed :=
  have hread := written_reads_back ofText_mixed
  ⟨ofText_mixed, hread.1, hread.2.1⟩

end RecipeFlow.RecipeDocument
