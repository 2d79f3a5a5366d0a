import RecipeFlow.Proofs.Schema.Members
import RecipeFlow.Recipe.Document

/-! What holds of every document that is read: it can be written. -/
namespace RecipeFlow

open Yaml Schema

variable {n : Node} {t : Tree} {i : Input} {is : List Input} {p : Parallel} {d : RecipeDocument}
  {w : WorkflowSection}

theorem InputKind.ofString_text (s : String) : ofString (ofString s).text = ofString s := by
  simp only [ofString]
  grind [text]

/-- An input as documents hold it: its kind is named by its text, and nothing is resolved. -/
def Input.IsWritable (i : Input) : Prop :=
  InputKind.ofString i.kind.text = i.kind ∧ i.resolved = []

/-- Settings with a size that 64 bits hold. -/
def Parallel.IsWritable (p : Parallel) : Prop :=
  ∀ size, p.partitionSize = some size → -(Nat.pow 2 63) ≤ size ∧ size < Nat.pow 2 63

def WorkflowSection.IsWritable : WorkflowSection → Prop
  | shell _ parallel => parallel.IsWritable
  | visualization size _ => size < Nat.pow 2 32

structure RecipeDocument.IsWritable (d : RecipeDocument) : Prop where
  inputs : ∀ i ∈ d.inputs, i.IsWritable
  workflow : d.workflow.IsWritable

namespace RecipeDocument

theorem isWritable_of_readInput (h : readInput n = .ok i) : i.IsWritable := by
  obtain ⟨d, hd, h⟩ := bind_eq_ok.1 h
  have hkind : ∀ k, d.kind = some k → InputKind.ofString k.text = k := by
    refine record_keeps
      (P := fun d : InputDraft => ∀ k, d.kind = some k → InputKind.ofString k.text = k)
      hd (by rintro k ⟨⟩) ?_
    intro s s' f v hset hs k hk
    split at hset
    · obtain ⟨x, -, rfl⟩ := map_eq_ok hset
      cases hk
      exact InputKind.ofString_text x
    · obtain ⟨x, -, rfl⟩ := map_eq_ok hset
      exact hs k hk
    · obtain ⟨x, -, rfl⟩ := map_eq_ok hset
      exact hs k hk
  obtain ⟨kind, hreq, h⟩ := bind_eq_ok.1 h
  obtain ⟨value, -, h⟩ := bind_eq_ok.1 h
  cases h
  exact ⟨hkind kind (required_eq_ok hreq), rfl⟩

theorem isWritable_of_readInputs (h : readInputs n = .ok is) : ∀ i ∈ is, i.IsWritable := by
  obtain ⟨params, hd, h⟩ := bind_eq_ok.1 h
  refine record_keeps (P := fun params => ∀ is, params = some is → ∀ i ∈ is, i.IsWritable)
    hd (by rintro is ⟨⟩) ?_ is (required_eq_ok h)
  intro s s' f v hset _
  obtain ⟨js, hjs, rfl⟩ := map_eq_ok hset
  rintro is ⟨⟩
  exact items_keeps hjs fun v i => isWritable_of_readInput

theorem isWritable_of_readParallel (ht : t.IsMeant) (h : readParallel t = .ok p) :
    p.IsWritable := by
  refine treeRecord_keeps (P := Parallel.IsWritable) h ht (by rintro size ⟨⟩) ?_
  intro s s' f v hv hset hs
  unfold setParallel at hset
  split at hset
  · obtain ⟨b, -, rfl⟩ := map_eq_ok hset
    exact hs
  · obtain ⟨x, -, rfl⟩ := map_eq_ok hset
    exact hs
  · obtain ⟨size, hsize, rfl⟩ := map_eq_ok hset
    rintro k rfl
    unfold orNull at hsize
    split at hsize
    · cases hsize
    · obtain ⟨k, hk, heq⟩ := map_eq_ok hsize
      cases heq
      exact treeInt_bounds hv hk

theorem isWritable_of_readShell (ht : t.IsMeant) (h : readShell t = .ok w) : w.IsWritable := by
  obtain ⟨⟨file, p⟩, hd, h⟩ := bind_eq_ok.1 h
  cases h
  refine treeRecord_keeps (P := fun s : String × Parallel => s.2.IsWritable)
    hd ht (by rintro size ⟨⟩) ?_
  intro s s' f v hv hset hs
  split at hset
  · obtain ⟨x, -, rfl⟩ := map_eq_ok hset
    exact hs
  · obtain ⟨p, hp, rfl⟩ := map_eq_ok hset
    exact isWritable_of_readParallel hv hp

theorem isWritable_of_readVisualization (ht : t.IsMeant) (h : readVisualization t = .ok w) :
    w.IsWritable := by
  obtain ⟨⟨size, file⟩, hd, h⟩ := bind_eq_ok.1 h
  cases h
  refine treeRecord_keeps (P := fun s : Nat × Option String => s.1 < Nat.pow 2 32)
    hd ht (by decide) ?_
  intro s s' f v hv hset hs
  split at hset
  · obtain ⟨x, hx, rfl⟩ := map_eq_ok hset
    exact treeCount_bound hv hx
  · obtain ⟨x, -, rfl⟩ := map_eq_ok hset
    exact hs

theorem isWritable_of_readWorkflow (h : readWorkflow n = .ok w) : w.IsWritable := by
  obtain ⟨⟨kind, rest⟩, hchoice, h⟩ := bind_eq_ok.1 h
  dsimp only at h
  split at h
  · exact isWritable_of_readShell (isMeant_of_choice hchoice) h
  · exact isWritable_of_readVisualization (isMeant_of_choice hchoice) h

/-- What holds of the sections that have been read so far. -/
structure Sections.IsWritable (d : Sections) : Prop where
  inputs : ∀ is, d.inputs = some is → ∀ i ∈ is, i.IsWritable
  workflow : ∀ w, d.workflow = some w → w.IsWritable

theorem isWritable_of_setSection {s s' : Sections} {f : String} (h : setSection s f n = .ok s')
    (hs : s.IsWritable) : s'.IsWritable := by
  unfold setSection at h
  split at h
  · obtain ⟨x, -, rfl⟩ := map_eq_ok h
    exact ⟨hs.inputs, hs.workflow⟩
  · obtain ⟨x, -, rfl⟩ := map_eq_ok h
    exact ⟨hs.inputs, hs.workflow⟩
  · obtain ⟨is, his, rfl⟩ := map_eq_ok h
    refine ⟨?_, hs.workflow⟩
    rintro _ ⟨⟩
    exact isWritable_of_readInputs his
  · obtain ⟨x, -, rfl⟩ := map_eq_ok h
    exact ⟨hs.inputs, hs.workflow⟩
  · obtain ⟨w, hw, rfl⟩ := map_eq_ok h
    refine ⟨hs.inputs, ?_⟩
    rintro _ ⟨⟩
    exact isWritable_of_readWorkflow hw

theorem isWritable_of_ofNode (h : ofNode n = .ok d) : d.IsWritable := by
  obtain ⟨s, hs, h⟩ := bind_eq_ok.1 h
  obtain ⟨name, -, h⟩ := bind_eq_ok.1 h
  obtain ⟨is, his, h⟩ := bind_eq_ok.1 h
  obtain ⟨w, hw, h⟩ := bind_eq_ok.1 h
  cases h
  have hsections : s.IsWritable :=
    record_keeps hs ⟨by rintro _ ⟨⟩, by rintro _ ⟨⟩⟩ fun s s' f v => isWritable_of_setSection
  exact ⟨hsections.inputs is (required_eq_ok his), hsections.workflow w (required_eq_ok hw)⟩

end RecipeDocument

end RecipeFlow
