import Mathlib.Data.List.Forall2
import RecipeFlow.Proofs.Shell.Word

/-! Lists of commands: how a shell reads the words of commands that are joined by `&&`. -/
namespace RecipeFlow.Shell

variable {c : Char} {cs rest p w : List Char} {q : Quoting} {part : Option (List Char)}
  {s t : String} {words ws vs : List String}

/-- The words of a command once the word that is being read, if there is one, is complete. -/
def endWord (words : List String) : Option (List Char) → List String
  | none => words
  | some w => words ++ [String.ofList w]

@[simp] theorem endWord_none : endWord words none = words := rfl

/-- A word that is being read goes on by one character, or starts with it. -/
def push (part : Option (List Char)) (c : Char) : Option (List Char) :=
  some (part.getD [] ++ [c])

/-- The commands of a text, each as its words, when a word of the first command may be half read
and some are complete. There are none where a command is empty, where quotes stay open, or where
anything but `&&` separates commands or something would be expanded. -/
def readList : Quoting → Option (List Char) → List String → List Char → Option (List (List String))
  | .bare, part, words, [] =>
    if endWord words part = [] then none else some [endWord words part]
  | .escaped, _, _, [] | .quoted, _, _, [] => none
  | .quoted, part, words, c :: cs =>
    if c = '\'' then readList .bare part words cs else readList .quoted (push part c) words cs
  | .escaped, part, words, c :: cs => readList .bare (push part c) words cs
  | .bare, part, words, '&' :: '&' :: cs =>
    if endWord words part = [] then none
    else (readList .bare none [] cs).map (endWord words part :: ·)
  | .bare, part, words, c :: cs =>
    if c = '\'' then readList .quoted (some (part.getD [])) words cs
    else if c = '\\' then readList .escaped (some (part.getD [])) words cs
    else if c = ' ' ∨ c = '\t' then readList .bare none (endWord words part) cs
    else if c ∈ separators ++ expanded then none
    else readList .bare (push part c) words cs

/-- The commands that a shell runs for a text, each as its words. -/
def commands? (s : String) : Option (List (List String)) :=
  readList .bare none [] s.toList

theorem readList_bare (hand : c ≠ '&' ∨ cs.head? ≠ some '&') :
    readList .bare part words (c :: cs) =
      if c = '\'' then readList .quoted (some (part.getD [])) words cs
      else if c = '\\' then readList .escaped (some (part.getD [])) words cs
      else if c = ' ' ∨ c = '\t' then readList .bare none (endWord words part) cs
      else if c ∈ separators ++ expanded then none
      else readList .bare (push part c) words cs := by
  rw [readList]
  rintro ds rfl rfl
  exact hand.elim (absurd rfl) (absurd rfl)

theorem readList_blank :
    readList .bare part words (' ' :: cs) = readList .bare none (endWord words part) cs := by
  rw [readList_bare (.inl (by decide)), if_neg (by decide), if_neg (by decide), if_pos (.inl rfl)]

theorem readList_literal (h : IsLiteral c) :
    readList .bare part words (c :: cs) = readList .bare (push part c) words cs := by
  have hand : c ≠ '&' := by
    rintro rfl
    exact absurd h (by decide)
  have hblank : ¬ (c = ' ' ∨ c = '\t') := by
    rintro (rfl | rfl)
    · exact absurd h (by decide)
    · exact absurd h (by decide)
  rw [readList_bare (.inl hand), if_neg h.ne_quote, if_neg h.ne_backslash, if_neg hblank,
    if_neg h.notMem]

/-- A word that is read by itself is read in a list of commands as well. -/
theorem readList_of_readWord (h : readWord q cs = some (w, rest)) :
    readList q (some p) words cs = readList .bare (some (p ++ w)) words rest := by
  induction cs generalizing q p w with
  | nil =>
    cases q with
    | bare =>
      cases h
      rw [List.append_nil]
    | escaped | quoted => cases h
  | cons c cs ih =>
    have hpush : ∀ q, ((readWord q cs).map fun wr => (c :: wr.1, wr.2)) = some (w, rest) →
        readList q (push (some p) c) words cs = readList .bare (some (p ++ w)) words rest := by
      intro q h
      obtain ⟨⟨w, r⟩, hword, heq⟩ := Option.map_eq_some_iff.1 h
      cases heq
      rw [push, ih hword, Option.getD_some, List.append_assoc, List.singleton_append]
    cases q with
    | quoted =>
      rw [readWord] at h
      rw [readList]
      split at h
      · next hc => rw [if_pos hc, ih h]
      · next hc => rw [if_neg hc, hpush _ h]
    | escaped => exact hpush _ h
    | bare =>
      rw [readWord] at h
      split at h
      · next hc =>
        subst hc
        rw [readList_bare (.inl (by decide)), if_pos rfl, ih h, Option.getD_some]
      split at h
      · next hc =>
        subst hc
        rw [readList_bare (.inl (by decide)), if_neg (by decide), if_pos rfl, ih h,
          Option.getD_some]
      split at h
      · cases h
        rw [List.append_nil]
      split at h
      · cases h
      · next hquote hback hend hexp =>
        have hc : IsLiteral c := by
          simp only [IsLiteral, List.cons_append, List.mem_cons, List.mem_append, not_or]
          exact ⟨hquote, hback, hend, hexp⟩
        rw [readList_literal hc, hpush _ h]

/-- A word is complete in front of what ends it. -/
theorem readList_ends (h : Ends rest) : readList .bare (some w) words rest =
    readList .bare none (words ++ [String.ofList w]) rest := by
  cases rest with
  | nil => rfl
  | cons c cs =>
    have hc : c ∈ separators := h c rfl
    by_cases hand : c = '&' ∧ cs.head? = some '&'
    · obtain ⟨rfl, hhead⟩ := hand
      obtain ⟨ds, rfl⟩ := List.head?_eq_some_iff.1 hhead
      rfl
    · have hquote : c ≠ '\'' := by
        rintro rfl
        exact absurd hc (by decide)
      have hback : c ≠ '\\' := by
        rintro rfl
        exact absurd hc (by decide)
      have hmem : c ∈ separators ++ expanded := List.mem_append_left _ hc
      have hbare := Decidable.not_and_iff_or_not.1 hand
      simp only [readList_bare hbare, if_neg hquote, if_neg hback, if_pos hmem]
      rfl

/-- A word starts with what does not end one. -/
theorem readList_start (h : c ∉ separators) :
    readList .bare none words (c :: cs) = readList .bare (some []) words (c :: cs) := by
  have hand : c ≠ '&' := by
    rintro rfl
    exact h (by decide)
  have hblank : ¬ (c = ' ' ∨ c = '\t') := by
    rintro (rfl | rfl)
    · exact h (by decide)
    · exact h (by decide)
  simp only [readList_bare (.inl hand), if_neg hblank]
  rfl

/-- A text that a shell reads as words, wherever it stands in a list of commands. -/
def Spells (s : String) (ws : List String) : Prop :=
  ∀ words rest, Ends rest →
    readList .bare none words (s.toList ++ rest) = readList .bare none (words ++ ws) rest

/-- What is read as one word by itself is one word of a command. -/
theorem spells_word (hne : s ≠ "")
    (h : ∀ rest, Ends rest → readWord .bare (s.toList ++ rest) = some (t.toList, rest)) :
    Spells s [t] := by
  intro words rest hrest
  obtain ⟨c, cs, hs⟩ : ∃ c cs, s.toList = c :: cs :=
    List.exists_cons_of_ne_nil fun hnil => hne (String.toList_eq_nil_iff.1 hnil)
  have hstart : c ∉ separators := by
    intro hc
    have hends : Ends s.toList := by
      rw [hs]
      intro d hd
      cases hd
      exact hc
    have hself := h [] nofun
    rw [List.append_nil, readWord_of_ends hends, hs] at hself
    exact List.cons_ne_nil _ _ (congrArg Prod.snd (Option.some.inj hself))
  have hword : readList .bare (some []) words (s.toList ++ rest) =
      readList .bare (some ([] ++ t.toList)) words rest := readList_of_readWord (h rest hrest)
  rw [hs, List.cons_append] at hword ⊢
  rw [readList_start hstart, hword, List.nil_append, readList_ends hrest, String.ofList_toList]

theorem quoteChars_ne_nil (cs : List Char) : quoteChars cs ≠ [] := by
  rw [quoteChars]
  split
  · exact List.cons_ne_nil _ _
  · next h =>
    rintro rfl
    exact h rfl

/-- A quoted text is a word, also behind a text that needs no quotes. -/
theorem spells_below (h : IsSafe s) (t : String) : Spells (s ++ quote t) [s ++ t] := by
  refine spells_word ?_ fun rest hrest => ?_
  · intro hempty
    have hlist := congrArg String.toList hempty
    rw [String.toList_append, quote, String.toList_ofList] at hlist
    exact quoteChars_ne_nil _ (List.append_eq_nil_iff.1 hlist).2
  · rw [String.toList_append, List.append_assoc, readWord_literals h, readWord_quote t hrest,
      String.toList_append]
    rfl

theorem spells_quote (t : String) : Spells (quote t) [t] := by
  have hempty : IsSafe "" := nofun
  simpa using spells_below hempty t

theorem spells_self (h : IsSafe s) (hne : s ≠ "") : Spells s [s] := by
  refine spells_word hne fun rest hrest => ?_
  rw [readWord_literals h, readWord_of_ends hrest]
  simp

/-- A given text that needs no quotes, of which that can be computed. -/
theorem spells_fixed (s : String) (h : s ≠ "" ∧ s.toList.all (IsLiteral ·) = true) : Spells s [s] :=
  spells_self (isSafe_of_all h.2) h.1

/-- The words that a text without quotes is: itself, or none if it is empty. -/
def bareWords (s : String) : List String :=
  if s = "" then [] else [s]

theorem spells_bare (h : IsSafe s) : Spells s (bareWords s) := by
  rw [bareWords]
  split
  · next hs =>
    subst hs
    intro words rest _
    rw [List.append_nil]
    rfl
  · next hs => exact spells_self h hs

theorem Spells.append (hs : Spells s ws) (ht : Spells t vs) :
    Spells (s ++ " " ++ t) (ws ++ vs) := by
  intro words rest hrest
  have hchars : (s ++ " " ++ t).toList ++ rest = s.toList ++ ' ' :: (t.toList ++ rest) := by
    simp
  rw [hchars, hs words _ (ends_blank _), readList_blank, endWord_none, ht _ rest hrest,
    List.append_assoc]

theorem commands?_of_spells (h : Spells s ws) (hne : ws ≠ []) : commands? s = some [ws] := by
  have hread := h [] [] nofun
  rw [List.append_nil, List.nil_append] at hread
  rw [commands?, hread, readList, endWord_none, if_neg hne]

/-- The words in front of `&&` are a command, and what is behind it are further ones. -/
theorem commands?_and (h : Spells s ws) (hne : ws ≠ []) (t : String) :
    commands? (s ++ " && " ++ t) = (commands? t).map (ws :: ·) := by
  have hchars : (s ++ " && " ++ t).toList = s.toList ++ ' ' :: '&' :: '&' :: ' ' :: t.toList := by
    simp
  rw [commands?, hchars, h [] _ (ends_blank _), List.nil_append, readList_blank, readList]
  simp only [endWord_none, if_neg hne, readList_blank]
  rfl

/-- Texts that are joined by `&&` are read as a command each. -/
theorem commands?_intercalate {ss : List String} {wss : List (List String)} (hne : ss ≠ [])
    (h : List.Forall₂ (fun s ws => Spells s ws ∧ ws ≠ []) ss wss) :
    commands? (" && ".intercalate ss) = some wss := by
  induction h with
  | nil => exact absurd rfl hne
  | @cons s ws ss wss hfirst hrest ih =>
    obtain ⟨hspells, hwords⟩ := hfirst
    cases hrest with
    | nil => rw [String.intercalate_singleton, commands?_of_spells hspells hwords]
    | cons hnext hrest =>
      rw [String.intercalate_cons_cons, commands?_and hspells hwords, ih (List.cons_ne_nil _ _)]
      rfl

example : commands? "mkdir -p /d && cp 'a b'\\''c' /d/x" =
    some [["mkdir", "-p", "/d"], ["cp", "a b'c", "/d/x"]] := by
  decide +kernel

end RecipeFlow.Shell
