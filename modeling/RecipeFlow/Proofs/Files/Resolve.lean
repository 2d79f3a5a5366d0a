import RecipeFlow.Files.Tree
import RecipeFlow.Proofs.Text.Split

/-! Where paths lead when the dots among their parts are resolved as text, and which directories
lie in each other. -/
namespace RecipeFlow

theorem FileTree.components_append {p q : String} :
    components (p ++ "/" ++ q) = components p ++ components q := by
  have hchars : (p ++ "/" ++ q).toList = p.toList ++ '/' :: q.toList := by simp
  simp only [components, Text.split]
  rw [hchars, Text.splitFrom_append, List.map_append]

theorem FileTree.components_of_notMem {p : String} (h : '/' ∉ p.toList) : components p = [p] := by
  rw [components, Text.split, Text.splitFrom_of_notMem h]
  simp

namespace Files

variable {path part p q : String} {place : List String}

/-- Goes on by one part of a path: an empty part and a dot lead nowhere, two dots lead back. -/
def enter (place : List String) (part : String) : List String :=
  if part = "" ∨ part = "." then place
  else if part = ".." then place.dropLast
  else place ++ [part]

/-- The names on the way from the root to where an absolute path leads. -/
def resolve (path : String) : List String :=
  (FileTree.components path).foldl enter []

/-- Whatever lies in the one directory, or is it, lies in the other, or is it. -/
def Covers (p q : String) : Prop :=
  resolve p <+: resolve q

/-- Two directories of which one is the other or lies in it. -/
def Overlap (p q : String) : Prop :=
  Covers p q ∨ Covers q p

instance : Decidable (Covers p q) :=
  inferInstanceAs (Decidable (resolve p <+: resolve q))

/-- A part of a path that names what it leads to. -/
structure IsName (part : String) : Prop where
  ne_empty : part ≠ ""
  ne_dot : part ≠ "."
  ne_dots : part ≠ ".."
  plain : '/' ∉ part.toList

theorem isName_of_head {c : Char} (h : p.toList.head? = some c) (hc : c ≠ '.')
    (hplain : '/' ∉ p.toList) : IsName p := by
  have hne : ∀ part ∈ ["", ".", ".."], p ≠ part := by
    have hhead : ∀ part ∈ ["", ".", ".."], ∀ d, part.toList.head? = some d → d = '.' := by
      simp
    rintro part hpart rfl
    exact hc (hhead _ hpart c h)
  exact ⟨hne "" (by decide), hne "." (by decide), hne ".." (by decide), hplain⟩

theorem resolve_append (h : '/' ∉ part.toList) :
    resolve (path ++ "/" ++ part) = enter (resolve path) part := by
  rw [resolve, FileTree.components_append, FileTree.components_of_notMem h, List.foldl_append]
  rfl

theorem enter_eq (h : IsName part) : enter place part = place ++ [part] := by
  rw [enter, if_neg (not_or.2 ⟨h.ne_empty, h.ne_dot⟩), if_neg h.ne_dots]

@[simp] theorem enter_dot : enter place "." = place := by
  simp [enter]

@[simp] theorem enter_dots : enter place ".." = place.dropLast := by
  simp [enter]

/-- A name leads one step further. -/
theorem resolve_name (h : IsName part) :
    resolve (path ++ "/" ++ part) = resolve path ++ [part] := by
  rw [resolve_append h.plain, enter_eq h]

end Files

end RecipeFlow
