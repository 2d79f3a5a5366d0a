import RecipeFlow.Dataset.Node
import RecipeFlow.Proofs.Url.Encoding

/-! Where a node has a file: what the last segment of the locator stands for. -/
namespace RecipeFlow.Dataset.Node

variable {node id : String}

/-- A segment that stands for an identifier below the files of a node: nothing ends it early, and
its bytes are those of the identifier. -/
structure Addresses (node id : String) (segment : List Char) : Prop where
  url : objectUrl node id = Text.trimSlashes node ++ "/v2/object/" ++ String.ofList segment
  whole : ∀ c ∈ segment, c ≠ '/' ∧ c ≠ '?' ∧ c ≠ '#'
  decoded : Url.percentDecode (Text.encode segment) = Text.encode id.toList

/-- A space becomes a plus sign, and nothing but a space becomes another character. -/
theorem plus_for_space_iff {cs : List Char} :
    (cs.map fun c => if c = ' ' then '+' else c) = cs ↔ ' ' ∉ cs := by
  constructor
  · intro h hspace
    rw [← h] at hspace
    obtain ⟨c, -, hc⟩ := List.mem_map.1 hspace
    split at hc
    · cases hc
    · next hne => exact hne hc
  · intro h
    have hfixed : ∀ c ∈ cs, (if c = ' ' then '+' else c) = c := by
      intro c hc
      refine if_neg ?_
      rintro rfl
      exact h hc
    exact (List.map_congr_left hfixed).trans (List.map_id _)

/-- The locator of a file has its identifier in one segment, in which a space has become a plus
sign. So the segment stands for the identifier just if that holds no space. -/
theorem objectUrl_addresses_iff (node id : String) : ∃ segment,
    objectUrl node id = Text.trimSlashes node ++ "/v2/object/" ++ String.ofList segment ∧
      (∀ c ∈ segment, c ≠ '/' ∧ c ≠ '?' ∧ c ≠ '#') ∧
      Url.percentDecode (Text.encode segment) =
        Text.encode (id.toList.map fun c => if c = ' ' then '+' else c) ∧
      (Addresses node id segment ↔ ' ' ∉ id.toList) := by
  have hurl : objectUrl node id =
      Text.trimSlashes node ++ "/v2/object/" ++ String.ofList (Url.formEncode id).toList := by
    rw [objectUrl, String.ofList_toList]
  have hwhole : ∀ c ∈ (Url.formEncode id).toList, c ≠ '/' ∧ c ≠ '?' ∧ c ≠ '#' := by
    intro c hc
    refine ⟨?_, ?_, ?_⟩
    all_goals
      rintro rfl
      exact Url.notMem_formEncode rfl (by decide) (by decide) hc
  refine ⟨(Url.formEncode id).toList, hurl, hwhole, Url.percentDecode_formEncode id, ?_⟩
  constructor
  · intro h
    exact plus_for_space_iff.1
      (Text.encode_inj.1 ((Url.percentDecode_formEncode id).symm.trans h.decoded))
  · intro h
    refine ⟨hurl, hwhole, ?_⟩
    rw [Url.percentDecode_formEncode, plus_for_space_iff.2 h]

/-- The locator of a file whose identifier holds a space is that of another one. -/
theorem objectUrl_spaced :
    objectUrl "https://h.example/" "a b" = "https://h.example/v2/object/" ++ "a+b" ∧
      Url.percentDecode (Text.encode "a+b".toList) = Text.encode "a+b".toList ∧
      Text.encode "a+b".toList ≠ Text.encode "a b".toList ∧
      ¬ ∃ segment, Addresses "https://h.example/" "a b" segment := by
  have hurl : objectUrl "https://h.example/" "a b" = "https://h.example/v2/object/" ++ "a+b" := by
    decide +kernel
  have hnode : Text.trimSlashes "https://h.example/" ++ "/v2/object/" =
      "https://h.example/v2/object/" := by decide +kernel
  have hread : Url.percentDecode (Text.encode "a+b".toList) = Text.encode "a+b".toList := by
    decide +kernel
  have hne : Text.encode "a+b".toList ≠ Text.encode "a b".toList := by decide +kernel
  refine ⟨hurl, hread, hne, ?_⟩
  rintro ⟨segment, h⟩
  have hsegment : "a+b" = String.ofList segment := by
    have hsame := hurl.symm.trans h.url
    rw [hnode] at hsame
    exact String.append_right_inj _ |>.1 hsame
  have hdecoded := h.decoded
  rw [← String.toList_ofList (l := segment), ← hsegment, hread] at hdecoded
  exact hne hdecoded

end RecipeFlow.Dataset.Node
