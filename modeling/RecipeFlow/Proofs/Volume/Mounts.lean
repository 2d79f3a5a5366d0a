import RecipeFlow.Proofs.Compile.Directories
import RecipeFlow.Proofs.Shell.Commands
import RecipeFlow.Publish.Graphs

/-! Places on the shared volume: where a path leads that a container reaches through its mounts. -/
namespace RecipeFlow

open Files

variable {id name path p q : String} {dir rest : List String} {m : Mount} {c : Container}

namespace Files

/-- The parts of a path, slashes at its ends and repeated ones aside. -/
def parts (path : String) : List String :=
  (FileTree.components path).filter (· ≠ "")

theorem parts_append : parts (p ++ "/" ++ q) = parts p ++ parts q := by
  rw [parts, FileTree.components_append, List.filter_append]
  rfl

theorem parts_name (hne : p ≠ "") (hplain : '/' ∉ p.toList) : parts p = [p] := by
  rw [parts, FileTree.components_of_notMem hplain]
  simp [hne]

end Files

/-- The place on the volume that a path leads to through a mount. -/
def Mount.place? (m : Mount) (path : String) : Option (List String) :=
  ((parts path).dropPrefix? (parts m.path)).map fun rest => m.subPath.elim [] parts ++ rest

/-- The place on the volume that a path leads to inside a container, if it leads there. -/
def Container.place? (c : Container) (path : String) : Option (List String) :=
  c.mounts.findSome? (·.place? path)

/-- A path that leads to a directory of the volume or to what is below it. -/
def Container.LeadsBelow (c : Container) (dir : List String) (path : String) : Prop :=
  ∃ rest, c.place? path = some (dir ++ rest) ∧ ∀ part ∈ rest, part ≠ "." ∧ part ≠ ".."

theorem Mount.place?_eq (h : parts path = parts m.path ++ rest) :
    m.place? path = some (m.subPath.elim [] parts ++ rest) := by
  rw [place?, h, List.dropPrefix?_append_of_beq rest (beq_self_eq_true _)]
  rfl

/-- Through a mount of the whole volume a path leads to what is behind the mount's own. -/
theorem Container.place?_whole {ms : List Mount} (hm : c.mounts = ⟨p, none⟩ :: ms)
    (h : parts path = parts p ++ rest) : c.place? path = some rest := by
  have hplace : (⟨p, none⟩ : Mount).place? path = some rest := Mount.place?_eq h
  rw [place?, hm, List.findSome?_cons_of_isSome (by rw [hplace]; rfl), hplace]

namespace Volume

variable {ms : List Mount}

theorem parts_id (h : Recipe.deriveId name = .ok id) : parts id = [id] :=
  parts_name (Recipe.isIdChar_of_deriveId h).1 (Recipe.slash_notMem_id h)

theorem parts_rootDir (h : Recipe.deriveId name = .ok id) :
    parts (Visualization.rootDir id) = parts volumeMount ++ [id] := by
  rw [Visualization.rootDir, parts_append, parts_id h]

theorem parts_scratchDir (h : Recipe.deriveId name = .ok id) :
    parts (scratchDir id) = parts volumeMount ++ [scratchRoot, id] := by
  have hroot : parts scratchRoot = [scratchRoot] := parts_name (by decide) (by decide)
  rw [scratchDir, parts_append, parts_append, parts_id h, hroot, List.append_assoc]
  rfl

/-- A directory is below itself. -/
theorem leadsBelow_self (hm : c.mounts = ⟨volumeMount, none⟩ :: ms)
    (hp : parts p = parts volumeMount ++ dir) : c.LeadsBelow dir p :=
  ⟨[], (Container.place?_whole hm hp).trans (by rw [List.append_nil]), List.forall_mem_nil _⟩

theorem leadsBelow_append (hm : c.mounts = ⟨volumeMount, none⟩ :: ms)
    (hp : parts p = parts volumeMount ++ dir)
    (hq : ∀ part ∈ parts q, part ≠ "." ∧ part ≠ "..") : c.LeadsBelow dir (p ++ "/" ++ q) := by
  refine ⟨parts q, Container.place?_whole hm ?_, hq⟩
  rw [parts_append, hp, List.append_assoc]

theorem leadsBelow_name (hm : c.mounts = ⟨volumeMount, none⟩ :: ms)
    (hp : parts p = parts volumeMount ++ dir) (hq : IsName q) :
    c.LeadsBelow dir (p ++ "/" ++ q) := by
  refine leadsBelow_append hm hp ?_
  rw [parts_name hq.ne_empty hq.plain]
  exact List.forall_mem_singleton.2 ⟨hq.ne_dot, hq.ne_dots⟩

section

variable (hid : Recipe.deriveId name = .ok id) (hm : c.mounts = ⟨volumeMount, none⟩ :: ms)
include hid hm

theorem leadsBelow_inputsDir : c.LeadsBelow [scratchRoot, id] (inputsDir id) := by
  have hslash : "/inputs" = "/" ++ "inputs" := rfl
  rw [inputsDir, hslash, ← String.append_assoc]
  exact leadsBelow_name hm (parts_scratchDir hid) ⟨by decide, by decide, by decide, by decide⟩

theorem leadsBelow_partitionDir (k p : Nat) :
    c.LeadsBelow [scratchRoot, id] (partitionDir id k p) :=
  leadsBelow_name hm (parts_scratchDir hid) (isName_partitionName k p)

theorem leadsBelow_inputDir (k p : Nat) :
    c.LeadsBelow [scratchRoot, id] (PartitionAddress.inputDir ⟨id, k, p⟩) := by
  cases k with
  | zero => exact leadsBelow_inputsDir hid hm
  | succ k => exact leadsBelow_partitionDir hid hm k p

end

/-- What looks for published data and what clears them see all of the volume at its root. -/
theorem place?_volumeRoot (h : Recipe.deriveId name = .ok id)
    (hm : c.mounts = [⟨Publish.volumeRoot, none⟩]) :
    c.place? (Publish.volumeRoot ++ id) = some [id] := by
  have hroot : Publish.volumeRoot = "/mnt" ++ "/" := by decide
  have hparts : parts Publish.volumeRoot = parts "/mnt" := by decide +kernel
  refine Container.place?_whole hm ?_
  rw [hparts, hroot, parts_append, parts_id h]

theorem tested?_checkGraph (h : Recipe.deriveId name = .ok id) :
    Shell.tested? ("test -d " ++ Publish.volumeRoot ++ id ++ " && echo \"yes\" > " ++
      Publish.answerFile ++ " || echo \"no\" > " ++ Publish.answerFile) =
        some (Publish.volumeRoot ++ id) := by
  have hplain : Shell.IsPlain (Publish.volumeRoot ++ id) :=
    (Shell.isPlain_of_all (by decide)).append (Recipe.isPlain_id h)
  obtain ⟨rest, hchars⟩ : ∃ rest, ("test -d " ++ Publish.volumeRoot ++ id ++
      " && echo \"yes\" > " ++ Publish.answerFile ++ " || echo \"no\" > " ++
      Publish.answerFile).toList =
        "test -d ".toList ++ ((Publish.volumeRoot ++ id).toList ++ ' ' :: rest) := by
    simp only [String.toList_append, List.append_assoc]
    exact ⟨_, rfl⟩
  have hends : Shell.Ends (' ' :: rest) := by
    intro c hc
    cases hc
    decide
  rw [Shell.tested?, hchars, ShellWorkflow.dropPrefix?_append, Option.bind_eq_bind,
    Option.bind_some, Shell.readWord_plain hplain hends]
  simp

theorem place?_outputDir (h : Recipe.deriveId name = .ok id)
    (hm : c.mounts = [⟨outputDir, some id⟩] ∨
      c.mounts = [⟨volumeMount, none⟩, ⟨outputDir, some id⟩]) :
    c.place? outputDir = some [id] := by
  have hother : (⟨volumeMount, none⟩ : Mount).place? outputDir = none := by decide +kernel
  have hplace : (⟨outputDir, some id⟩ : Mount).place? outputDir = some [id] := by
    rw [Mount.place?_eq (List.append_nil _).symm, List.append_nil]
    exact congrArg some (parts_id h)
  rcases hm with hm | hm
  · rw [Container.place?, hm, List.findSome?_cons, hplace]
  · rw [Container.place?, hm, List.findSome?_cons, hother, List.findSome?_cons, hplace]

end Volume

end RecipeFlow
