import RecipeFlow.Compile.Visualization
import RecipeFlow.Proofs.Compile.Script
import RecipeFlow.Proofs.Recipe.Identifier
import RecipeFlow.Publish.Graphs

/-! Recipes beside each other on the shared volume: whose data lies where, and what is removed. -/
namespace RecipeFlow

open Files Recipe

namespace Shell

/-- The directory that a script begins with removing. -/
def removed? (script : String) : Option String := do
  let cs ← script.toList.dropPrefix? "rm -rf ".toList
  let (path, _) ← readWord .bare cs
  return String.ofList path

theorem removed?_eq_some {script path : String} (rest : List Char)
    (hscript : script.toList = "rm -rf ".toList ++ (path.toList ++ rest))
    (hpath : IsPlain path) (hrest : Ends rest) :
    removed? script = some path := by
  rw [removed?, hscript, ShellWorkflow.dropPrefix?_append, Option.bind_eq_bind, Option.bind_some,
    readWord_plain hpath hrest]
  simp

end Shell

namespace Volume

variable {a b i j : String}

/-- What the directories of a recipe, and what removes them, leave to a recipe. -/
structure Isolated (i j : String) : Prop where
  /-- Published data lies right below the root of the volume. -/
  child : ∃ n, resolve (Visualization.rootDir i) = resolve volumeMount ++ [n]
  apart : ¬ Overlap (Visualization.rootDir i) (scratchDir j)
  published : i ≠ j → ¬ Overlap (Visualization.rootDir i) (Visualization.rootDir j)
  scratch : i ≠ j → ¬ Overlap (scratchDir i) (scratchDir j)
  /-- Clearing removes one directory, as seen from where it has the volume mounted. -/
  cleared : ∃ p, (Publish.clearGraph i).tasks.map (·.container.script?.bind Shell.removed?) =
      [some p] ∧ ¬ Covers p (Publish.volumeRoot ++ scratchRoot ++ "/" ++ j) ∧
        (i ≠ j → ¬ Covers p (Publish.volumeRoot ++ j))
  /-- So does fetching onto the volume. -/
  staged : ∀ (r : Recipe) (items : List FetchItem), r.id = i →
    ∃ p, (ShellWorkflow.stagingTask r items).container.script?.bind Shell.removed? = some p ∧
      ¬ Covers p (Visualization.rootDir j) ∧ (i ≠ j → ¬ Covers p (scratchDir j))

theorem resolve_volumeMount : resolve volumeMount = ["mnt", "workflow"] := by
  decide +kernel

theorem resolve_rootDir (h : '/' ∉ i.toList) :
    resolve (Visualization.rootDir i) = enter ["mnt", "workflow"] i := by
  rw [Visualization.rootDir, resolve_append h, resolve_volumeMount]

theorem resolve_scratchDir (h : '/' ∉ i.toList) :
    resolve (scratchDir i) = enter ["mnt", "workflow", scratchRoot] i := by
  have hscratch : resolve (volumeMount ++ "/" ++ scratchRoot) =
      ["mnt", "workflow", scratchRoot] := by
    decide +kernel
  rw [scratchDir, resolve_append h, hscratch]

theorem removed?_clearGraph (h : deriveId a = .ok i) :
    (Publish.clearGraph i).tasks.map (·.container.script?.bind Shell.removed?) =
      [some (Publish.volumeRoot ++ i)] := by
  have hplain : Shell.IsPlain (Publish.volumeRoot ++ i) :=
    (Shell.isPlain_of_all (by decide)).append (isPlain_id h)
  have hremoved : Shell.removed? ("rm -rf " ++ Publish.volumeRoot ++ i) =
      some (Publish.volumeRoot ++ i) := by
    refine Shell.removed?_eq_some [] ?_ hplain nofun
    simp [String.toList_append]
  exact congrArg (fun p => [p]) hremoved

theorem removed?_stagingTask {r : Recipe} (h : deriveId a = .ok r.id) (items : List FetchItem) :
    (ShellWorkflow.stagingTask r items).container.script?.bind Shell.removed? =
      some (scratchDir r.id) := by
  refine Shell.removed?_eq_some (" && ".toList ++
    (FetchItem.fetchCommand items (inputsDir r.id) .pinned).toList) ?_ (isPlain_scratchDir h) ?_
  · simp [String.toList_append]
  · intro c hc
    cases hc
    decide

/-- The volume as a task sees it that has all of it mounted at its root. -/
theorem resolve_volumeRoot (h : '/' ∉ i.toList) :
    resolve (Publish.volumeRoot ++ i) = enter ["mnt"] i ∧
      resolve (Publish.volumeRoot ++ scratchRoot ++ "/" ++ i) = enter ["mnt", scratchRoot] i := by
  have hroot : Publish.volumeRoot = "/mnt" ++ "/" := by decide
  have hmount : resolve "/mnt" = ["mnt"] := by decide +kernel
  have hscratch : resolve (Publish.volumeRoot ++ scratchRoot) = ["mnt", scratchRoot] := by
    decide +kernel
  constructor
  · rw [hroot, resolve_append h, hmount]
  · rw [resolve_append h, hscratch]

/-- Identifiers that name directories of their own isolate their recipes. -/
theorem isolated_of_names (ha : deriveId a = .ok i) (hi : IsName i) (hwork : i ≠ scratchRoot)
    (hj : IsName j) : Isolated i j := by
  have hri := (resolve_rootDir hi.plain).trans (enter_eq hi)
  have hrj := (resolve_rootDir hj.plain).trans (enter_eq hj)
  have hsi := (resolve_scratchDir hi.plain).trans (enter_eq hi)
  have hsj := (resolve_scratchDir hj.plain).trans (enter_eq hj)
  have hvi := (resolve_volumeRoot hi.plain).1.trans (enter_eq hi)
  have hvj := (resolve_volumeRoot hj.plain).1.trans (enter_eq hj)
  have hwj := (resolve_volumeRoot hj.plain).2.trans (enter_eq hj)
  refine ⟨⟨i, ?_⟩, ?_, ?_, ?_, ?_, ?_⟩
  · rw [hri, resolve_volumeMount]
  · simpa [Overlap, Covers, hri, hsj] using hwork
  · intro hne
    simpa [Overlap, Covers, hri, hrj] using ⟨hne, Ne.symm hne⟩
  · intro hne
    simpa [Overlap, Covers, hsi, hsj] using ⟨hne, Ne.symm hne⟩
  · refine ⟨_, removed?_clearGraph ha, ?_, ?_⟩
    · simpa [Covers, hvi, hwj] using hwork
    · intro hne
      simpa [Covers, hvi, hvj] using hne
  · rintro r items rfl
    refine ⟨_, removed?_stagingTask ha items, ?_, ?_⟩
    · simp [Covers, hsi, hrj]
    · intro hne
      simpa [Covers, hsi, hsj] using hne

theorem not_isolated_dot : ¬ Isolated "." j := by
  intro h
  obtain ⟨n, hn⟩ := h.child
  have hroot : resolve (Visualization.rootDir ".") = resolve volumeMount := by decide +kernel
  rw [hroot] at hn
  simp at hn

theorem not_isolated_dots : ¬ Isolated ".." j := by
  intro h
  obtain ⟨n, hn⟩ := h.child
  have houtside : resolve (Visualization.rootDir "..") = ["mnt"] := by decide +kernel
  rw [houtside, resolve_volumeMount] at hn
  simp at hn

/-- Recipes are isolated exactly if no identifier stands for the root of the volume, for what the
volume is mounted in, or for where all intermediate data lies. -/
theorem isolated_iff (ha : deriveId a = .ok i) (hb : deriveId b = .ok j) :
    Isolated i j ↔ i ∉ [".", "..", scratchRoot] ∧ j ∉ [".", ".."] := by
  have hri := resolve_rootDir (slash_notMem_id ha)
  have hsj := resolve_scratchDir (slash_notMem_id hb)
  simp only [List.mem_cons, List.not_mem_nil, or_false, not_or]
  constructor
  · intro h
    have hdot : i ≠ "." := by
      rintro rfl
      exact not_isolated_dot h
    have hdots : i ≠ ".." := by
      rintro rfl
      exact not_isolated_dots h
    rw [enter_eq (isName_id ha hdot hdots)] at hri
    have hdots' : j ≠ ".." := by
      rintro rfl
      refine h.apart (.inr ?_)
      simp [Covers, hri, hsj]
    have hdot' : j ≠ "." := by
      rintro rfl
      refine h.published hdot (.inr ?_)
      simp [Covers, hri, resolve_rootDir (slash_notMem_id hb)]
    rw [enter_eq (isName_id hb hdot' hdots')] at hsj
    refine ⟨⟨hdot, hdots, ?_⟩, hdot', hdots'⟩
    rintro rfl
    refine h.apart (.inl ?_)
    simp [Covers, hri, hsj]
  · rintro ⟨⟨hdot, hdots, hwork⟩, hdot', hdots'⟩
    exact isolated_of_names ha (isName_id ha hdot hdots) hwork (isName_id hb hdot' hdots')

theorem isolated_iff_names : deriveId "My Recipe" = .ok "my-recipe" ∧
    deriveId "v1.2" = .ok "v1.2" ∧ Isolated "my-recipe" "v1.2" := by
  have ha : deriveId "My Recipe" = .ok "my-recipe" := by decide +kernel
  have hb : deriveId "v1.2" = .ok "v1.2" := by decide +kernel
  exact ⟨ha, hb, (isolated_iff ha hb).2 (by decide)⟩

/-- The name of the scratch directory is accepted, and clearing its data is clearing that of every
run; so are names that lead out of the volume. -/
theorem work_not_isolated : deriveId ".work" = .ok ".work" ∧ deriveId "b" = .ok "b" ∧
    Covers (Visualization.rootDir ".work") (scratchDir "b") ∧
      (Publish.clearGraph ".work").tasks.map (·.container.script?) = [some "rm -rf /mnt/.work"] ∧
      Covers "/mnt/.work" (Publish.volumeRoot ++ scratchRoot ++ "/" ++ "b") ∧
      ¬ Isolated ".work" "b" ∧ deriveId ".." = .ok ".." ∧
      resolve (Visualization.rootDir "..") = ["mnt"] := by
  have hwork : Covers (Visualization.rootDir ".work") (scratchDir "b") := by decide +kernel
  refine ⟨?_, ?_, hwork, ?_, ?_, fun h => h.apart (.inl hwork), ?_, ?_⟩ <;> decide +kernel

end Volume

end RecipeFlow
