import RecipeFlow.Proofs.Graph.Pipeline

/-! Cycles of graphs that are built by appending stages: for one, a name has to come back in a
later stage. -/
namespace RecipeFlow.Graph

variable {g : Graph} {ss : List Stage} {names : List String}

theorem names_wire : (wire names ss).map (fun s => s.tasks.map Task.name) =
    ss.map fun s => s.tasks.map Task.name := by
  have hlayout := congrArg (List.map Prod.snd) (@layout_wire ss names)
  rwa [List.map_map, List.map_map] at hlayout

theorem namesApart_appendAll (h : g.stages = []) :
    NamesApart (g.appendAll ss).stages ↔ NamesApart ss := by
  rw [NamesApart, stages_appendAll, h, List.nil_append, names_wire, NamesApart]

/-- Where nothing waits for itself and no stage is idle, no name comes back: its task would wait,
through the stages between, for the one that had it before. -/
theorem IsChained.namesApart (h : g.IsChained) (hbusy : ∀ s ∈ g.stages, s.tasks ≠ [])
    (hacyclic : ∀ a, ¬ Relation.TransGen g.WaitsFor a a) : NamesApart g.stages := by
  refine List.pairwise_map.2 (List.pairwise_iff_getElem.2 fun m n hm hn hmn => ?_)
  intro a ha ha'
  obtain ⟨u, hu, rfl⟩ := List.mem_map.1 ha
  obtain ⟨t, ht, hname⟩ := List.mem_map.1 ha'
  have hwaits := h.ordered hbusy hmn (List.getElem?_eq_getElem hm) (List.getElem?_eq_getElem hn)
    hu ht
  rw [hname] at hwaits
  exact hacyclic _ hwaits

/-- Whatever stages are appended, with whatever tasks, nothing comes to wait for itself as long as
no two stages share a name. With no stage idle, that is the only way. -/
theorem appendAll_acyclic (h : g.stages = []) :
    (NamesApart ss → ∀ a, ¬ Relation.TransGen (g.appendAll ss).WaitsFor a a) ∧
      ((∀ s ∈ ss, s.tasks ≠ []) →
        (∀ a, ¬ Relation.TransGen (g.appendAll ss).WaitsFor a a) → NamesApart ss) := by
  refine ⟨fun hapart => ?_, fun hbusy hacyclic => ?_⟩
  · exact (isChained_appendAll h).acyclic ((namesApart_appendAll h).2 hapart)
  · exact (namesApart_appendAll h).1
      ((isChained_appendAll h).namesApart (busy_appendAll h hbusy) hacyclic)

/-- A task that says itself what it waits for. -/
def building : Task := { name := "build", container := .shell "make", dependencies := ["test"] }

def testing : Task := { name := "test", container := .shell "make test" }

/-- Two tasks of one stage may share a name, and what a task says of itself does not count. -/
theorem appendAll_acyclic_shared :
    (Graph.empty "demo-").stages = [] ∧
      NamesApart [⟨"build", .process 0, [building, building]⟩, ⟨"test", .process 1, [testing]⟩] ∧
      ∀ a, ¬ Relation.TransGen ((Graph.empty "demo-").appendAll
        [⟨"build", .process 0, [building, building]⟩, ⟨"test", .process 1, [testing]⟩]).WaitsFor
          a a := by
  have hapart : NamesApart
      [⟨"build", .process 0, [building, building]⟩, ⟨"test", .process 1, [testing]⟩] := by
    simp [NamesApart, building, testing, List.Disjoint]
  exact ⟨rfl, hapart, (appendAll_acyclic rfl).1 hapart⟩

/-- A name that comes back in the next stage waits for itself. -/
theorem rebuilt_waits_for_itself : ¬ ∀ a, ¬ Relation.TransGen ((Graph.empty "demo-").appendAll
    [⟨"first", .process 0, [building]⟩, ⟨"again", .process 1, [building]⟩]).WaitsFor a a := by
  intro hacyclic
  refine hacyclic "build" (.single ⟨{ building with dependencies := ["build"] }, ?_, rfl, ?_⟩)
  · exact List.mem_cons_of_mem _ List.mem_cons_self
  · exact List.mem_cons_self

end RecipeFlow.Graph
