import Mathlib.Data.List.Forall2
import RecipeFlow.Compile.Address
import RecipeFlow.Proofs.Files.Resolve
import RecipeFlow.Proofs.Shell.Word
import RecipeFlow.Proofs.Text.Letters
import RecipeFlow.Recipe.Identifier

/-! Identifiers: which names have one, and which names share one; what they are made of, so what
they are as words and as names of directories. -/
namespace RecipeFlow.Recipe

variable {name id : String} {c d : Char}

theorem isNameChar_iff :
    isNameChar c = true ↔ c.isAlphanum = true ∨ c = ' ' ∨ c = '.' ∨ c = '-' := by
  rw [isNameChar, Text.isAsciiLetter_eq, Text.isDigit_eq, Text.isAlphanum_eq]
  simp only [Bool.or_eq_true, beq_iff_eq, or_assoc]

theorem isIdChar_iff :
    isIdChar c = true ↔ c.isLower = true ∨ c.isDigit = true ∨ c = '.' ∨ c = '-' := by
  have hlower : ('a' ≤ c && c ≤ 'z') = true ↔ c.isLower = true := by
    rw [Text.isLower_iff, Bool.and_eq_true, decide_eq_true_eq, decide_eq_true_eq]
    rfl
  rw [isIdChar, Text.isDigit_eq]
  simp only [Bool.or_eq_true, beq_iff_eq, or_assoc, hlower]

theorem isNameChar_of_isIdChar (h : isIdChar c = true) : isNameChar c = true := by
  rw [isNameChar_iff, Text.isAlphanum_eq]
  rcases isIdChar_iff.1 h with h | h | h
  · simp [h]
  · simp [h]
  · exact .inr (.inr h)

theorem foldNameChar_of_ne (h : c ≠ ' ') : foldNameChar c = c.toLower := by
  rw [foldNameChar, if_neg h, Text.lowerAscii_eq]

theorem isIdChar_foldNameChar (h : isNameChar c = true) : isIdChar (foldNameChar c) = true := by
  by_cases hspace : c = ' '
  · rw [foldNameChar, if_pos hspace]
    decide
  · rw [foldNameChar_of_ne hspace, isIdChar_iff]
    rcases Text.toLower_cases c with ⟨-, hlow⟩ | ⟨hupper, hsame⟩
    · exact .inl hlow
    · rw [hsame]
      rcases isNameChar_iff.1 h with h | h | h
      · rw [Text.isAlphanum_eq, hupper, Bool.false_or, Bool.or_eq_true] at h
        exact h.imp_right .inl
      · exact absurd h hspace
      · exact .inr (.inr h)

/-- What an identifier may hold stays as it is. -/
theorem foldNameChar_of_isIdChar (h : isIdChar c = true) : foldNameChar c = c := by
  have hspace : c ≠ ' ' := by
    rintro rfl
    cases h
  rw [foldNameChar_of_ne hspace]
  refine Text.toLower_of_not_isUpper (Bool.eq_false_iff.2 fun hupper => ?_)
  obtain ⟨hfirst, hlast⟩ := Text.isUpper_iff.1 hupper
  rcases isIdChar_iff.1 h with h | h | rfl | rfl
  · have hsmall := (Text.isLower_iff.1 h).1
    omega
  · have hdigit : c.toNat ≤ 57 := (Char.isDigit_iff_toNat.1 h).2
    omega
  · cases hupper
  · cases hupper

/-- Characters that stand for each other: one letter in either case, or a space and a hyphen. -/
def Alike (c d : Char) : Prop :=
  c.toLower = d.toLower ∨ (c = ' ' ∨ c = '-') ∧ (d = ' ' ∨ d = '-')

theorem alike_comm : Alike c d ↔ Alike d c := by
  rw [Alike, Alike, eq_comm, and_comm]

theorem hyphen_eq_toLower_iff (hd : d ≠ ' ') : '-' = d.toLower ↔ Alike ' ' d := by
  constructor
  · exact fun h => .inr ⟨.inl rfl, .inr (Text.eq_of_toLower (by decide) h.symm)⟩
  · rintro (h | ⟨-, h | rfl⟩)
    · exact absurd (Text.eq_of_toLower (by decide) h.symm) hd
    · exact absurd h hd
    · rfl

theorem foldNameChar_eq_iff : foldNameChar c = foldNameChar d ↔ Alike c d := by
  by_cases hc : c = ' '
  · subst hc
    by_cases hd : d = ' '
    · subst hd
      exact iff_of_true rfl (.inl rfl)
    · rw [foldNameChar_of_ne hd]
      exact hyphen_eq_toLower_iff hd
  · rw [foldNameChar_of_ne hc]
    by_cases hd : d = ' '
    · subst hd
      rw [alike_comm, eq_comm]
      exact hyphen_eq_toLower_iff hc
    · rw [foldNameChar_of_ne hd]
      refine ⟨.inl, ?_⟩
      rintro (h | ⟨h, h'⟩)
      · exact h
      · rw [h.resolve_left hc, h'.resolve_left hd]

/-- The second check passes wherever the first one does. -/
theorem deriveId_cases (name : String) :
    (name ≠ "" ∧ ∀ c ∈ name.toList, isNameChar c = true) ∧
      deriveId name = .ok (String.ofList (name.toList.map foldNameChar)) ∨
    ¬ (name ≠ "" ∧ ∀ c ∈ name.toList, isNameChar c = true) ∧
      deriveId name = .error (.invalid Code.recipeInvalidName
        ("name '" ++ name ++ "' may only contain letters, digits, spaces, '.' and '-'")
        (some "name")) := by
  have hempty : name.toList.isEmpty = true ↔ name = "" := by
    rw [List.isEmpty_iff, String.toList_eq_nil_iff]
  unfold deriveId
  split
  · next h =>
    refine .inr ⟨?_, rfl⟩
    rintro ⟨hne, hall⟩
    rw [List.all_eq_true.2 hall, Bool.not_true, Bool.or_false, hempty] at h
    exact hne h
  · next h =>
    simp only [Bool.or_eq_true, Bool.not_eq_true', not_or, Bool.not_eq_false, hempty,
      List.all_eq_true] at h
    have hid : ∀ c ∈ name.toList.map foldNameChar, isIdChar c = true := by
      intro x hx
      obtain ⟨c, hc, rfl⟩ := List.mem_map.1 hx
      exact isIdChar_foldNameChar (h.2 c hc)
    have hsome : (name.toList.map foldNameChar).isEmpty = false := by
      rw [List.isEmpty_map]
      exact Bool.eq_false_iff.2 fun hnone => h.1 (hempty.1 hnone)
    refine .inl ⟨h, ?_⟩
    dsimp only
    rw [String.toList_ofList, List.all_eq_true.2 hid, hsome]
    rfl

theorem deriveId_eq_ok_iff : deriveId name = .ok id ↔
    (name ≠ "" ∧ ∀ c ∈ name.toList, isNameChar c = true) ∧
      id.toList = name.toList.map foldNameChar := by
  rcases deriveId_cases name with ⟨hname, hid⟩ | ⟨hname, hfault⟩
  · rw [hid, and_iff_right hname, Except.ok.injEq, eq_comm, ← String.toList_inj,
      String.toList_ofList]
  · rw [hfault]
    exact iff_of_false nofun fun h => hname h.1

/-- A derived identifier is not empty and holds the characters of an identifier only. -/
theorem isIdChar_of_deriveId (h : deriveId name = .ok id) :
    id ≠ "" ∧ ∀ c ∈ id.toList, isIdChar c = true := by
  obtain ⟨⟨hne, hall⟩, hfold⟩ := deriveId_eq_ok_iff.1 h
  refine ⟨?_, ?_⟩
  · rintro rfl
    exact hne (String.toList_eq_nil_iff.1 (List.map_eq_nil_iff.1 hfold.symm))
  · intro x hx
    rw [hfold] at hx
    obtain ⟨c, hc, rfl⟩ := List.mem_map.1 hx
    exact isIdChar_foldNameChar (hall c hc)

/-- No character of an identifier means anything to a shell. -/
theorem needsQuotes_of_isIdChar (h : isIdChar c = true) : Shell.needsQuotes c = false := by
  have hspecial : ['\n', '\'', '|', '&', ';', '<', '>', '(', ')', '$', '\x60', '\\', '"',
      ' ', '\t', '*', '?', '[', '#', '~', '=', '%'].all (!isIdChar ·) = true := by
    decide
  rw [Shell.needsQuotes, List.contains_eq_mem, decide_eq_false_iff_not]
  intro hmem
  simpa [h] using List.all_eq_true.1 hspecial c hmem

theorem slash_notMem_id (h : deriveId name = .ok id) : '/' ∉ id.toList := by
  intro hmem
  exact absurd ((isIdChar_of_deriveId h).2 '/' hmem) (by decide)

/-- An identifier names a directory unless it stands for a place already. -/
theorem isName_id (h : deriveId name = .ok id) (hdot : id ≠ ".") (hdots : id ≠ "..") :
    Files.IsName id :=
  ⟨(isIdChar_of_deriveId h).1, hdot, hdots, slash_notMem_id h⟩

theorem isPlain_id (h : deriveId name = .ok id) : Shell.IsPlain id :=
  fun c hc => needsQuotes_of_isIdChar ((isIdChar_of_deriveId h).2 c hc)

theorem isPlain_scratchDir (h : deriveId name = .ok id) : Shell.IsPlain (scratchDir id) :=
  (Shell.isPlain_of_all (by decide)).append (isPlain_id h)

/-- A name has an identifier just if it holds letters, digits, spaces, dots and hyphens only. The
identifier is as long as the name and its own identifier, and names share it that differ in the case
of letters, and in spaces for hyphens, only. -/
theorem deriveId_decided (name : String) :
    ((∃ id, deriveId name = .ok id) ↔ name ≠ "" ∧
      ∀ c ∈ name.toList, c.isAlphanum = true ∨ c = ' ' ∨ c = '.' ∨ c = '-') ∧
    (∀ f, deriveId name = .error f → f = .invalid Code.recipeInvalidName
      ("name '" ++ name ++ "' may only contain letters, digits, spaces, '.' and '-'")
      (some "name")) ∧
    ∀ id, deriveId name = .ok id → id.length = name.length ∧
      (∀ c ∈ id.toList, c.isLower = true ∨ c.isDigit = true ∨ c = '.' ∨ c = '-') ∧
      deriveId id = .ok id ∧ ∀ name' id', deriveId name' = .ok id' →
        (id = id' ↔ List.Forall₂ Alike name.toList name'.toList) := by
  simp only [← isNameChar_iff, ← isIdChar_iff]
  refine ⟨?_, ?_, ?_⟩
  · simp only [deriveId_eq_ok_iff]
    exact ⟨fun ⟨_, h, _⟩ => h, fun h => ⟨_, h, String.toList_ofList⟩⟩
  · intro f hf
    rcases deriveId_cases name with ⟨-, hid⟩ | ⟨-, hfault⟩
    · cases hid.symm.trans hf
    · exact Except.error.inj (hf.symm.trans hfault)
  · intro id hid
    obtain ⟨hne, hall⟩ := isIdChar_of_deriveId hid
    obtain ⟨-, hfold⟩ := deriveId_eq_ok_iff.1 hid
    have hself : id.toList.map foldNameChar = id.toList := by
      rw [List.map_congr_left fun c hc => foldNameChar_of_isIdChar (hall c hc)]
      exact List.map_id' _
    refine ⟨?_, hall, ?_, ?_⟩
    · rw [← String.length_toList, hfold, List.length_map, String.length_toList]
    · exact deriveId_eq_ok_iff.2
        ⟨⟨hne, fun c hc => isNameChar_of_isIdChar (hall c hc)⟩, hself.symm⟩
    · intro name' id' hid'
      obtain ⟨-, hfold'⟩ := deriveId_eq_ok_iff.1 hid'
      rw [← String.toList_inj, hfold, hfold', ← List.forall₂_eq_eq_eq, List.forall₂_map_left_iff,
        List.forall₂_map_right_iff]
      simp only [foldNameChar_eq_iff]

/-- A name and the identifier it shares with another. -/
theorem deriveId_decided_shared : deriveId "My Recipe" = .ok "my-recipe" ∧
    deriveId "MY-RECIPE" = .ok "my-recipe" ∧
    List.Forall₂ Alike "My Recipe".toList "MY-RECIPE".toList := by
  have h : deriveId "My Recipe" = .ok "my-recipe" := by decide +kernel
  have h' : deriveId "MY-RECIPE" = .ok "my-recipe" := by decide +kernel
  exact ⟨h, h', (((deriveId_decided "My Recipe").2.2 _ h).2.2.2 _ _ h').1 rfl⟩

end RecipeFlow.Recipe
