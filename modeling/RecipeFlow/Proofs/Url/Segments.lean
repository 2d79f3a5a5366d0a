import RecipeFlow.Proofs.Except
import RecipeFlow.Proofs.Files.Resolve
import RecipeFlow.Url.Parse

/-! Segments of paths: a locator that has been read has no slash, no line end and no dots among
them. -/
namespace RecipeFlow

namespace Url

variable {c : Char} {cs s : List Char} {rev ss : List (List Char)} {set : Char → Bool}
  {special file : Bool}
  {scheme : List Char} {u : Url}

/-- A segment that stands for itself. -/
structure IsSegment (s : List Char) : Prop where
  plain : '/' ∉ s
  unbroken : '\n' ∉ s
  undotted : dots s = 0

/-- A path whose segments stand for themselves. -/
def IsNormal (p : UrlPath) : Prop :=
  ∀ ss, p = .segments ss → ∀ s ∈ ss, IsSegment s

/-- Such a segment, unless it is empty, can be the name of a file. -/
theorem IsSegment.isName (h : IsSegment s) (hne : s ≠ []) : Files.IsName (String.ofList s) := by
  have hchars : ∀ t : String, String.ofList s = t → s = t.toList := by
    rintro _ rfl
    rw [String.toList_ofList]
  refine ⟨fun he => hne (hchars _ he), ?_, ?_, ?_⟩
  · intro hdot
    have hone := h.undotted
    rw [hchars _ hdot] at hone
    cases hone
  · intro hdots
    have htwo := h.undotted
    rw [hchars _ hdots] at htwo
    cases htwo
  · rw [String.toList_ofList]
    exact h.plain

theorem isSegment_nil : IsSegment [] :=
  ⟨List.not_mem_nil, List.not_mem_nil, rfl⟩

theorem notMem_escapeByte (hc : c = '/' ∨ c = '\n') (b : UInt8) : c ∉ escapeByte b := by
  have hmark : c ≠ '%' := by rcases hc with rfl | rfl <;> decide
  have hdigit : ∀ n < 16, c ≠ hexDigit n := by rcases hc with rfl | rfl <;> decide
  have hhigh : b.toNat / 16 < 16 := by
    have hb := b.toNat_lt
    omega
  have hlow : b.toNat % 16 < 16 := Nat.mod_lt _ (by decide)
  simp only [escapeByte, List.mem_cons, List.not_mem_nil, or_false, not_or]
  exact ⟨hmark, hdigit _ hhigh, hdigit _ hlow⟩

theorem notMem_percentEncode (hc : c = '/' ∨ c = '\n') (h : c ∉ cs ∨ set c = true) :
    c ∉ percentEncode set cs := by
  intro hmem
  obtain ⟨d, hd, hmem⟩ := List.mem_flatMap.1 hmem
  split at hmem
  · obtain ⟨b, -, hb⟩ := List.mem_flatMap.1 hmem
    exact notMem_escapeByte hc b hb
  · next hset =>
    obtain rfl := List.mem_singleton.1 hmem
    rcases h with h | h
    · exact h hd
    · exact hset h

theorem mem_of_mem_shorten (h : s ∈ shorten file rev) : s ∈ rev := by
  unfold shorten at h
  split at h
  · exact h
  · split at h
    · exact h
    · cases h
  · exact List.mem_cons_of_mem _ h

theorem dots_le_two (s : List Char) : dots s ≤ 2 := by
  unfold dots
  split
  all_goals try split
  all_goals try split
  all_goals decide

/-- The drive of a file is no dots, whatever stands behind its letter. -/
theorem isSegment_drive (h : isDrive false s = true) (hs : '/' ∉ s) (hs' : '\n' ∉ s) :
    IsSegment (s.take 1 ++ [':']) := by
  unfold isDrive at h
  split at h
  · next a b =>
    have ha : '/' ≠ a := fun heq => hs (heq ▸ List.mem_cons_self)
    have ha' : '\n' ≠ a := fun heq => hs' (heq ▸ List.mem_cons_self)
    constructor
    · simpa using ha
    · simpa using ha'
    · simp [dots]
  · cases h

/-- Dots are taken out as segments are appended. -/
theorem isSegment_of_mem_appendSegments (hrev : ∀ s ∈ rev, IsSegment s)
    (hss : ∀ s ∈ ss, '/' ∉ s ∧ '\n' ∉ s) : ∀ s ∈ appendSegments file rev ss, IsSegment s := by
  induction ss generalizing rev with
  | nil => simpa [appendSegments] using hrev
  | cons s ss ih =>
    obtain ⟨⟨hs, hs'⟩, hss⟩ := List.forall_mem_cons.1 hss
    have hlast : ∀ (last : Bool) {rev}, (∀ s ∈ rev, IsSegment s) →
        ∀ s ∈ (if last then [] :: rev else rev), IsSegment s := by
      intro last rev hrev
      cases last with
      | true => exact List.forall_mem_cons.2 ⟨isSegment_nil, hrev⟩
      | false => exact hrev
    rw [appendSegments]
    split
    · exact ih (hlast _ fun s hs => hrev s (mem_of_mem_shorten hs)) hss
    · exact ih (hlast _ hrev) hss
    · next hup hstay =>
      refine ih (List.forall_mem_cons.2 ⟨?_, hrev⟩) hss
      split
      · next hdrive =>
        simp only [Bool.and_eq_true] at hdrive
        exact isSegment_drive hdrive.2 hs hs'
      · have hle := dots_le_two s
        have hup : dots s ≠ 2 := hup
        have hstay : dots s ≠ 1 := hstay
        exact ⟨hs, hs', by omega⟩

theorem isSegment_of_mem_pathOf : ∀ s ∈ pathOf special file cs, IsSegment s := by
  have hsegments : ∀ s ∈ (segmentsOf special cs).map (percentEncode pathSet),
      '/' ∉ s ∧ '\n' ∉ s := by
    rintro _ hmem
    obtain ⟨piece, hpiece, rfl⟩ := List.mem_map.1 hmem
    constructor
    · exact notMem_percentEncode (.inl rfl) (.inl (Text.notMem_of_mem_split hpiece))
    · exact notMem_percentEncode (.inr rfl) (.inr (by decide))
  have hall : ∀ s ∈ appendSegments file [] ((segmentsOf special cs).map (percentEncode pathSet)),
      IsSegment s := isSegment_of_mem_appendSegments nofun hsegments
  intro s hs
  rw [pathOf] at hs
  split at hs
  · dsimp only at hs
    split at hs
    · rw [List.mem_singleton.1 hs]
      exact isSegment_nil
    · exact hall s ((List.dropWhile_sublist _).subset hs)
  · exact hall s hs

theorem isNormal_pathOf : IsNormal (.segments (pathOf special file cs)) := by
  rintro _ ⟨⟩
  exact isSegment_of_mem_pathOf

theorem isNormal_root : IsNormal (.segments [[]]) := by
  rintro _ ⟨⟩ s hs
  rw [List.mem_singleton.1 hs]
  exact isSegment_nil

theorem isNormal_nil : IsNormal (.segments []) := by
  rintro _ ⟨⟩
  exact nofun

theorem isNormal_bare : IsNormal (.bare cs) :=
  nofun

theorem isNormal_withAuthority : Yields (IsNormal ·.path) (withAuthority scheme special cs) := by
  unfold withAuthority
  dsimp only
  -- Whatever is found before the path, or refused there, the path is made of segments alone.
  repeat' first
    | exact Yields.ok isNormal_pathOf
    | exact Yields.ok isNormal_root
    | exact Yields.ok isNormal_nil
    | refine Yields.guard fun _ => ?_
    | refine Yields.bind fun _ => ?_
    | refine Yields.ite (fun _ => ?_) (fun _ => ?_)
    | split

theorem isNormal_fileUrl : Yields (IsNormal ·.path) (fileUrl cs) := by
  unfold fileUrl
  dsimp only
  repeat' first
    | exact Yields.ok isNormal_pathOf
    | refine Yields.bind fun _ => ?_
    | refine Yields.ite (fun _ => ?_) (fun _ => ?_)
    | split

theorem isNormal_otherUrl : Yields (IsNormal ·.path) (otherUrl scheme cs) := by
  unfold otherUrl
  split
  · exact isNormal_withAuthority
  · exact Yields.ok isNormal_pathOf
  · exact Yields.ok isNormal_bare

/-- The path of a locator that has been read is normal. -/
theorem isNormal_of_parse {text : String} (h : parse text = .ok u) : IsNormal u.path := by
  rw [parse, parseChars] at h
  split at h
  · cases h
  · split at h
    · exact isNormal_fileUrl u h
    · split at h
      · exact isNormal_withAuthority u h
      · exact isNormal_otherUrl u h

end Url

end RecipeFlow
