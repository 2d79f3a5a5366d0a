import RecipeFlow.Proofs.Compile.Partitions
import RecipeFlow.Proofs.Run.Transcript
import RecipeFlow.Run.Recipe

/-! Recipes that are ready to be compiled: what loading has checked, and what resolving datasets has
added to it. -/
namespace RecipeFlow

variable {es : List Exchange}

/-- A selection of files holds one. -/
theorem Dataset.ne_nil_of_select {dataset : String} {pattern : Option String}
    {objects selected : List DataObject} (h : select dataset pattern objects = .ok selected) :
    selected ≠ [] := by
  unfold select at h
  split at h
  · cases h
  · next hobjects =>
    cases pattern with
    | none =>
      cases h
      simpa using hobjects
    | some pattern =>
      dsimp only at h
      unfold filterByName at h
      split at h
      · cases h
      · dsimp only at h
        split at h
        · cases h
        · next hmatching =>
          cases h
          simpa using hmatching

namespace Input

variable {i j : Input} {is js : List Input}

/-- An input that its files are known of, if it stands for a dataset. -/
def IsResolved (i : Input) : Prop :=
  i.kind = .dataone → i.resolved ≠ []

theorem isResolved_of_runs (h : Dialogue.Runs i.resolve es (.done j)) : j.IsResolved := by
  rw [resolve] at h
  split at h
  · obtain ⟨objects, pre, post, rfl, -, h⟩ := Dialogue.runs_bind_done.1 h
    obtain ⟨selected, pre', post', rfl, hselect, h⟩ := Dialogue.runs_bind_done.1 h
    obtain ⟨-, hj⟩ := Dialogue.runs_pure.1 h
    cases hj
    obtain ⟨-, hselect⟩ := Dialogue.runs_ofExcept.1 hselect
    intro _
    cases hx : Dataset.select i.value i.filename objects with
    | error f =>
      rw [hx] at hselect
      cases hselect
    | ok xs =>
      rw [hx] at hselect
      cases hselect
      exact Dataset.ne_nil_of_select hx
  · next hkind =>
    obtain ⟨-, hj⟩ := Dialogue.runs_pure.1 h
    cases hj
    exact fun h => absurd h hkind

/-- Resolving leaves no input out, and none of them without its files. -/
theorem isResolved_of_runs_all (h : Dialogue.Runs (resolveAll is) es (.done js)) :
    js.length = is.length ∧ ∀ j ∈ js, j.IsResolved := by
  induction is generalizing es js with
  | nil =>
    obtain ⟨-, hjs⟩ := Dialogue.runs_pure.1 h
    cases hjs
    exact ⟨rfl, nofun⟩
  | cons i is ih =>
    rw [resolveAll] at h
    obtain ⟨j, pre, post, rfl, hj, h⟩ := Dialogue.runs_bind_done.1 h
    obtain ⟨rest, pre', post', rfl, hrest, h⟩ := Dialogue.runs_bind_done.1 h
    obtain ⟨-, hjs⟩ := Dialogue.runs_pure.1 h
    cases hjs
    obtain ⟨hlength, hresolved⟩ := ih hrest
    exact ⟨congrArg Nat.succ hlength, List.forall_mem_cons.2 ⟨isResolved_of_runs hj, hresolved⟩⟩

/-- Where no input stands for a dataset, there is nothing to resolve. -/
theorem resolveAll_eq_pure (h : ∀ i ∈ is, i.kind ≠ .dataone) : resolveAll is = pure is := by
  induction is with
  | nil => rfl
  | cons i is ih =>
    obtain ⟨hi, his⟩ := List.forall_mem_cons.1 h
    rw [resolveAll, resolve, if_neg hi, ih his]
    rfl

theorem ne_nil_of_checkAll (h : checkAll is = .ok ()) : is ≠ [] := by
  rintro rfl
  cases h

end Input

namespace Recipe

variable {files : Files} {dir text : String} {d : RecipeDocument} {r loaded : Recipe}

/-- A recipe that was loaded from a text beside some files and whose datasets, if any, were resolved
with some answers. -/
def IsPrepared (r : Recipe) : Prop :=
  ∃ files dir text loaded es, ofText files dir text = .ok loaded ∧
    Dialogue.Runs loaded.resolve es (.done r)

/-- The recipe in a directory is that of some text. -/
theorem exists_ofText (h : ofDirectory files dir = .ok r) :
    ∃ text, ofText files dir text = .ok r := by
  rw [ofDirectory] at h
  split at h
  · next text _ => exact ⟨text, h⟩
  · cases h

theorem runs_resolve_self (h : r.hasDatasets = false) : Dialogue.Runs r.resolve [] (.done r) := by
  have hkinds : ∀ i ∈ r.inputs, i.kind ≠ .dataone := by
    simpa [hasDatasets] using h
  rw [resolve, Input.resolveAll_eq_pure hkinds]
  exact .done r

/-- What is loaded for a run is a recipe of the directory, with its datasets resolved. -/
theorem loadResolved_done {resolvable : Bool}
    (h : Dialogue.Runs (loadResolved files resolvable dir) es (.done r)) :
    ∃ loaded es', ofDirectory files dir = .ok loaded ∧
      Dialogue.Runs loaded.resolve es' (.done r) := by
  obtain ⟨loaded, pre, post, rfl, hload, h⟩ := Dialogue.runs_bind_done.1 h
  obtain ⟨-, hload⟩ := Dialogue.runs_ofExcept.1 hload
  cases hfound : ofDirectory files dir with
  | error f =>
    rw [hfound] at hload
    cases hload
  | ok r' =>
    rw [hfound] at hload
    cases hload
    split at h
    · next hnone =>
      obtain ⟨-, hr⟩ := Dialogue.runs_pure.1 h
      cases hr
      exact ⟨r, [], rfl, runs_resolve_self (by simpa using hnone)⟩
    · split at h
      · cases h
      · obtain ⟨o, ho, hdone⟩ := Dialogue.runs_mapFault h
        rw [hdone r rfl] at ho
        exact ⟨loaded, post, rfl, ho⟩

theorem isPrepared_of_loadResolved {resolvable : Bool}
    (h : Dialogue.Runs (loadResolved files resolvable dir) es (.done r)) : r.IsPrepared := by
  obtain ⟨loaded, es', hfound, hresolve⟩ := loadResolved_done h
  obtain ⟨text, htext⟩ := exists_ofText hfound
  exact ⟨files, dir, text, loaded, es', htext, hresolve⟩

/-- Resolving changes nothing but inputs. -/
theorem resolve_done (h : Dialogue.Runs r.resolve es (.done loaded)) :
    ∃ is, Dialogue.Runs (Input.resolveAll r.inputs) es (.done is) ∧
      loaded = { r with inputs := is } := by
  obtain ⟨is, pre, post, rfl, his, h⟩ := Dialogue.runs_bind_done.1 h
  obtain ⟨rfl, hr⟩ := Dialogue.runs_pure.1 h
  cases hr
  exact ⟨is, by simpa using his, rfl⟩

/-- What a recipe has to be for its compilation. -/
structure IsReady (r : Recipe) : Prop where
  named : deriveId r.name = .ok r.id
  inputs : r.inputs ≠ []
  resolved : ∀ i ∈ r.inputs, i.IsResolved

theorem named_of_ofDocument (h : ofDocument files dir d = .ok r) :
    deriveId r.name = .ok r.id ∧ r.inputs ≠ [] := by
  obtain ⟨id, hid, h⟩ := bind_eq_ok.1 h
  obtain ⟨_, hinputs, h⟩ := bind_eq_ok.1 h
  obtain ⟨workflow, -, h⟩ := bind_eq_ok.1 h
  cases h
  exact ⟨hid, Input.ne_nil_of_checkAll hinputs⟩

theorem named_of_ofText (h : ofText files dir text = .ok r) :
    deriveId r.name = .ok r.id ∧ r.inputs ≠ [] := by
  obtain ⟨d, -, h⟩ := bind_eq_ok.1 h
  exact named_of_ofDocument h

/-- A prepared recipe is ready. -/
theorem IsPrepared.isReady (h : r.IsPrepared) : r.IsReady := by
  obtain ⟨files, dir, text, loaded, es, hload, hresolve⟩ := h
  obtain ⟨hid, hinputs⟩ := named_of_ofText hload
  obtain ⟨is, his, rfl⟩ := resolve_done hresolve
  obtain ⟨hlength, hresolved⟩ := Input.isResolved_of_runs_all his
  refine ⟨hid, ?_, hresolved⟩
  rintro hnil
  rw [show is = [] from hnil, eq_comm, List.length_nil, List.length_eq_zero_iff] at hlength
  exact hinputs hlength

end Recipe

end RecipeFlow
