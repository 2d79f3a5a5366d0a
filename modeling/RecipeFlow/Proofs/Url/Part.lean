import RecipeFlow.Proofs.Url.Authority
import RecipeFlow.Proofs.Url.Decoding

/-! Texts that are put behind a root without being encoded: which of them make up one segment that
stands for them. -/
namespace RecipeFlow.Url

open Text

variable {c : Char} {cs q s t xs ys zs : List Char} {rev ss ts : List (List Char)}

/-- A text that is one segment of a path and stands for itself there. -/
structure IsPart (cs : List Char) : Prop where
  whole : ∀ c ∈ cs, c ∉ ['/', '\\', '?', '#', '\t', '\n', '\r']
  undotted : cs ≠ ['.'] ∧ cs ≠ ['.', '.']
  /-- No percent sign in it is read together with digits behind it. -/
  unescaped : percentDecode (encode cs) = encode cs

instance : Decidable (IsPart cs) :=
  letI := List.decidableBAll (· ∉ ['/', '\\', '?', '#', '\t', '\n', '\r']) cs
  decidable_of_iff ((∀ c ∈ cs, c ∉ ['/', '\\', '?', '#', '\t', '\n', '\r']) ∧
      (cs ≠ ['.'] ∧ cs ≠ ['.', '.']) ∧ percentDecode (encode cs) = encode cs)
    ⟨fun h => ⟨h.1, h.2.1, h.2.2⟩, fun h => ⟨h.whole, h.undotted, h.unescaped⟩⟩

theorem isSlash_iff : isSlash true c = true ↔ c = '/' ∨ c = '\\' := by
  simp [isSlash]

theorem isIgnored_iff : isIgnored c = true ↔ c = '\t' ∨ c = '\n' ∨ c = '\r' := by
  simp [isIgnored, or_assoc]

theorem filter_sublist_iff : xs.Sublist (xs.filter (!isIgnored ·)) ↔
    ∀ c ∈ xs, isIgnored c = false := by
  constructor
  · intro h c hc
    have hkept := List.of_mem_filter (h.subset hc)
    simpa using hkept
  · intro h
    rw [List.filter_eq_self.2 fun c hc => by rw [h c hc]; rfl]

namespace IsPart

variable (h : IsPart cs)
include h

theorem notMem_marks : '?' ∉ cs ∧ '#' ∉ cs :=
  ⟨fun hc => h.whole _ hc (by decide), fun hc => h.whole _ hc (by decide)⟩

theorem filter_eq : cs.filter (!isIgnored ·) = cs := by
  rw [List.filter_eq_self]
  intro c hc
  rw [Bool.not_eq_true', ← Bool.not_eq_true, isIgnored_iff]
  intro hignored
  apply h.whole c hc
  rcases hignored with rfl | rfl | rfl <;> decide

theorem written_eq : written cs = [percentEncode pathSet cs] := by
  have hplain : ∀ c ∈ cs, isSlash true c = false := by
    intro c hc
    rw [← Bool.not_eq_true, isSlash_iff]
    intro hslash
    apply h.whole c hc
    rcases hslash with rfl | rfl <;> decide
  rw [written, segmentsOf_of_plain hplain]
  rfl

theorem decoded : percentDecode (encode (percentEncode pathSet cs)) = encode cs :=
  (percentDecode_percentEncode ne_mark_of_pathSet cs).trans h.unescaped

theorem dots_eq_zero : dots (percentEncode pathSet cs) = 0 := by
  by_contra hdots
  rcases percentDecode_dots hdots with hread | hread
  · exact h.undotted.1 (encode_inj.1 (h.decoded.symm.trans hread))
  · exact h.undotted.2 (encode_inj.1 (h.decoded.symm.trans hread))

end IsPart

/-- A segment of what is left of a text that stands for the text is all of it. -/
theorem isPart_of_segment (hys : ys.Sublist (xs.filter (!isIgnored ·))) (hask : '?' ∉ ys)
    (hmark : '#' ∉ ys) (hs : s ∈ written ys) (hdots : dots s = 0)
    (hread : percentDecode (encode s) = encode xs) : ys = xs ∧ IsPart xs := by
  obtain ⟨q, hq, rfl⟩ := List.mem_map.1 hs
  obtain ⟨hsub, hplain⟩ := of_mem_segmentsOf hq
  have hxs : ys.Sublist xs := hys.trans List.filter_sublist
  obtain rfl : q = xs := eq_of_percentDecode (hsub.trans hxs) hread
  obtain rfl : ys = q := hxs.antisymm hsub
  have hkept := filter_sublist_iff.1 hys
  refine ⟨rfl, ?_, ⟨?_, ?_⟩, ?_⟩
  · intro c hc hmem
    simp only [List.mem_cons, List.not_mem_nil, or_false] at hmem
    rcases hmem with rfl | rfl | rfl | rfl | rfl | rfl | rfl
    · cases hplain _ hc
    · cases hplain _ hc
    · exact hask hc
    · exact hmark hc
    · cases hkept _ hc
    · cases hkept _ hc
    · cases hkept _ hc
  · rintro rfl
    cases hdots
  · rintro rfl
    cases hdots
  · rw [percentDecode_percentEncode ne_mark_of_pathSet] at hread
    exact hread

/-- A path that has two segments more than before has the first of them from within, and the last
one from its end, if that is not empty. -/
theorem of_finish_eq (h : finish (walk rev ss) t = q :: s :: rev) :
    (s ∈ ss ∧ dots s = 0) ∧ (q = [] ∨ q = t ∧ dots t = 0) := by
  by_cases ht : dots t = 0
  · rw [finish_of_undotted ht] at h
    obtain ⟨rfl, hwalk⟩ := List.cons.inj h
    exact ⟨mem_of_walk_eq_cons hwalk, .inr ⟨rfl, ht⟩⟩
  · rw [finish, if_neg ht] at h
    obtain ⟨hq, hwalk⟩ := List.cons.inj h
    have hall : walk rev (ss ++ [t]) = s :: rev := by
      rw [walk_append]
      exact hwalk
    obtain ⟨hs, hdots⟩ := mem_of_walk_eq_cons hall
    refine ⟨⟨?_, hdots⟩, .inl hq.symm⟩
    rcases List.mem_append.1 hs with hs | hs
    · exact hs
    · rw [List.mem_singleton.1 hs] at hdots
      exact absurd hdots ht

theorem splitTail_notMem (cs : List Char) : '?' ∉ (splitTail cs).1 ∧ '#' ∉ (splitTail cs).1 := by
  have hout : ∀ (d : Char) (ds : List Char), d ∉ ds.takeWhile (· != d) := by
    intro d ds hmem
    simpa using List.mem_takeWhile_imp hmem
  refine ⟨hout '?' _, ?_⟩
  intro hmem
  exact hout '#' cs ((List.takeWhile_prefix _).subset hmem)

theorem splitTail_isPrefixOf (cs : List Char) : (splitTail cs).1 <+: cs :=
  (List.takeWhile_prefix _).trans (List.takeWhile_prefix _)

theorem dropEnd_sublist (p : Char → Bool) (cs : List Char) : (dropEnd p cs).Sublist cs := by
  have hsub := (List.dropWhile_sublist (l := cs.reverse) p).reverse
  rwa [List.reverse_reverse] at hsub

theorem last_dropEnd (p : Char → Bool) (cs : List Char) :
    ∀ c ∈ (dropEnd p cs).getLast?, p c = false := by
  intro c hc
  rw [dropEnd, List.getLast?_reverse] at hc
  have hhead := List.head?_dropWhile_not p cs.reverse
  rw [Option.mem_def.1 hc] at hhead
  simpa using hhead

/-- A last segment that stands for a text is all of it, if something has been left of the text. -/
theorem isPart_of_last (hsplit : written (splitTail ((dropEnd isTrimmed ys).filter
      (!isIgnored ·))).1 = ts ++ [t]) (hlast : q = [] ∨ q = t ∧ dots t = 0)
    (hread : percentDecode (encode q) = encode ys) :
    IsPart ys ∧ ∀ c ∈ ys.getLast?, isTrimmed c = false := by
  rcases hlast with rfl | ⟨rfl, hdots⟩
  · obtain rfl : [] = ys := encode_inj.1 hread
    exact ⟨by decide, nofun⟩
  · obtain ⟨hask, hmark⟩ := splitTail_notMem ((dropEnd isTrimmed ys).filter (!isIgnored ·))
    have hsub := (splitTail_isPrefixOf ((dropEnd isTrimmed ys).filter (!isIgnored ·))).sublist
    have hmem : q ∈ written (splitTail ((dropEnd isTrimmed ys).filter (!isIgnored ·))).1 := by
      rw [hsplit]
      exact List.mem_append_right _ (List.mem_singleton_self q)
    obtain ⟨hwhole, hpart⟩ := isPart_of_segment
      (hsub.trans ((dropEnd_sublist isTrimmed ys).filter _)) hask hmark hmem hdots hread
    refine ⟨hpart, ?_⟩
    rw [hwhole] at hsub
    have hdrop := (dropEnd_sublist isTrimmed ys).antisymm (hsub.trans List.filter_sublist)
    rw [← hdrop]
    exact last_dropEnd isTrimmed ys

/-- What counts of two parts with a slash between them, unless the second is trimmed. -/
theorem splitTail_parts (hxs : IsPart xs) (hys : IsPart ys)
    (hend : ∀ c ∈ ys.getLast?, isTrimmed c = false) :
    splitTail (xs.filter (!isIgnored ·) ++ '/' :: (dropEnd isTrimmed ys).filter (!isIgnored ·)) =
      (xs ++ '/' :: ys, none, none) := by
  rw [dropEnd_of_last hend, hxs.filter_eq, hys.filter_eq]
  apply splitTail_of_notMem
  · simp [hxs.notMem_marks, hys.notMem_marks]
  · simp [hxs.notMem_marks, hys.notMem_marks]

/-- A query or a fragment that starts in a text leaves no segment that stands for it. -/
theorem notMem_of_mem_written (hmem : s ∈ written (splitTail (xs.filter (!isIgnored ·) ++ zs)).1)
    (hdots : dots s = 0) (hs : percentDecode (encode s) = encode xs) :
    '?' ∉ xs.filter (!isIgnored ·) ∧ '#' ∉ xs.filter (!isIgnored ·) := by
  have hnone := splitTail_notMem (xs.filter (!isIgnored ·) ++ zs)
  have hpre := splitTail_isPrefixOf (xs.filter (!isIgnored ·) ++ zs)
  rcases List.prefix_or_prefix_of_prefix hpre (List.prefix_append _ _) with hshort | hlong
  · obtain ⟨-, hpart⟩ := isPart_of_segment hshort.sublist hnone.1 hnone.2 hmem hdots hs
    rw [hpart.filter_eq]
    exact hpart.notMem_marks
  · exact ⟨fun hc => hnone.1 (hlong.subset hc), fun hc => hnone.2 (hlong.subset hc)⟩

/-- Where two texts with a slash between them make up two segments that stand for them, each is a
part. -/
theorem isPart_of_finish (hsplit : written (splitTail (xs.filter (!isIgnored ·) ++
      '/' :: (dropEnd isTrimmed ys).filter (!isIgnored ·))).1 = ts ++ [t])
    (hpath : finish (walk rev ts) t = q :: s :: rev)
    (hs : percentDecode (encode s) = encode xs) (hq : percentDecode (encode q) = encode ys) :
    IsPart xs ∧ IsPart ys ∧ ∀ c ∈ ys.getLast?, isTrimmed c = false := by
  obtain ⟨⟨hmem, hdots⟩, hlast⟩ := of_finish_eq hpath
  have hfirst := notMem_of_mem_written (hsplit ▸ List.mem_append_left _ hmem) hdots hs
  have htail := splitTail_append_slash hfirst.1 hfirst.2
    ((dropEnd isTrimmed ys).filter (!isIgnored ·))
  obtain ⟨us, t', hus⟩ :=
    exists_written_eq (splitTail ((dropEnd isTrimmed ys).filter (!isIgnored ·))).1
  rw [htail, written_append, hus, ← List.append_assoc] at hsplit
  obtain ⟨hts, ht⟩ := List.append_inj' hsplit rfl
  obtain rfl : t' = t := List.singleton_inj.1 ht
  obtain ⟨hpart, hend⟩ := isPart_of_last hus hlast hq
  rw [dropEnd_of_last hend, hpart.filter_eq,
    splitTail_of_notMem hpart.notMem_marks.1 hpart.notMem_marks.2, hpart.written_eq] at hus
  obtain rfl : us = [] := by
    cases us with
    | nil => rfl
    | cons u us => simp at hus
  rw [List.append_nil] at hts
  subst hts
  exact ⟨(isPart_of_segment (List.Sublist.refl _) hfirst.1 hfirst.2 hmem hdots hs).2, hpart, hend⟩

end RecipeFlow.Url
