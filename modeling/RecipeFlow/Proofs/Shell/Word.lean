import RecipeFlow.Shell.Word

/-! How a shell reads a word back: a quoted text stands for itself, whatever follows it. -/
namespace RecipeFlow.Shell

variable {c : Char} {cs rest xs : List Char}

/-- The characters that end a word outside quotes. -/
def separators : List Char := [' ', '\t', '\n', '&', ';', '|', '<', '>', '(', ')']

/-- The characters that a shell expands outside quotes, so that they do not stand for themselves. -/
def expanded : List Char := ['$', '\x60', '"', '*', '?', '[', '#', '~']

/-- Where in a word one is. -/
inductive Quoting where
  | bare
  /-- Behind a backslash. -/
  | escaped
  /-- Inside single quotes. -/
  | quoted

/-- What a word stands for, and what is behind it. There is no such word where quotes stay open or
something would be expanded. -/
def readWord : Quoting → List Char → Option (List Char × List Char)
  | .bare, [] => some ([], [])
  | .escaped, [] | .quoted, [] => none
  | .quoted, c :: cs =>
    if c = '\'' then readWord .bare cs
    else (readWord .quoted cs).map fun (w, r) => (c :: w, r)
  | .escaped, c :: cs => (readWord .bare cs).map fun (w, r) => (c :: w, r)
  | .bare, c :: cs =>
    if c = '\'' then readWord .quoted cs
    else if c = '\\' then readWord .escaped cs
    else if c ∈ separators then some ([], c :: cs)
    else if c ∈ expanded then none
    else (readWord .bare cs).map fun (w, r) => (c :: w, r)

/-- A text that a word is complete in front of. -/
def Ends (rest : List Char) : Prop :=
  ∀ c ∈ rest.head?, c ∈ separators

theorem ends_blank (cs : List Char) : Ends (' ' :: cs) := by
  intro c hc
  cases hc
  decide

theorem readWord_of_ends (h : Ends rest) : readWord .bare rest = some ([], rest) := by
  cases rest with
  | nil => rfl
  | cons c cs =>
    have hc : c ∈ separators := h c rfl
    have hquote : c ≠ '\'' := by
      rintro rfl
      exact absurd hc (by decide)
    have hback : c ≠ '\\' := by
      rintro rfl
      exact absurd hc (by decide)
    rw [readWord, if_neg hquote, if_neg hback, if_pos hc]

/-- Inside quotes each character is read back, a quote among them as well. -/
theorem readWord_quoteChar :
    readWord .quoted (quoteChar c ++ cs) =
      (readWord .quoted cs).map fun (w, r) => (c :: w, r) := by
  by_cases hc : c = '\''
  · subst hc
    rfl
  · simp only [quoteChar, if_neg hc, List.singleton_append]
    rw [readWord, if_neg hc]

theorem readWord_quoted (h : Ends rest) :
    readWord .quoted (cs.flatMap quoteChar ++ '\'' :: rest) = some (cs, rest) := by
  induction cs with
  | nil => exact readWord_of_ends h
  | cons c cs ih =>
    rw [List.flatMap_cons, List.append_assoc, readWord_quoteChar, ih]
    rfl

/-- A character that stands for itself outside quotes. -/
def IsLiteral (c : Char) : Prop :=
  c ∉ '\'' :: '\\' :: separators ++ expanded

instance : Decidable (IsLiteral c) :=
  inferInstanceAs (Decidable (¬ _))

theorem IsLiteral.ne_quote (h : IsLiteral c) : c ≠ '\'' := by
  rintro rfl
  exact absurd h (by decide)

theorem IsLiteral.ne_backslash (h : IsLiteral c) : c ≠ '\\' := by
  rintro rfl
  exact absurd h (by decide)

theorem IsLiteral.notMem (h : IsLiteral c) : c ∉ separators ++ expanded := by
  intro hmem
  exact h (List.mem_cons_of_mem _ (List.mem_cons_of_mem _ hmem))

/-- A character that needs no quotes stands for itself. -/
theorem isLiteral_of_needsQuotes (h : needsQuotes c = false) : IsLiteral c := by
  have hspecial : ∀ d ∈ '\'' :: '\\' :: separators ++ expanded, needsQuotes d = true :=
    List.all_eq_true.1 (by decide)
  intro hmem
  cases h.symm.trans (hspecial c hmem)

theorem readWord_literal (h : IsLiteral c) :
    readWord .bare (c :: cs) = (readWord .bare cs).map fun (w, r) => (c :: w, r) := by
  have hplain := h.notMem
  rw [List.mem_append, not_or] at hplain
  rw [readWord, if_neg h.ne_quote, if_neg h.ne_backslash, if_neg hplain.1, if_neg hplain.2]

theorem readWord_literals (h : ∀ c ∈ xs, IsLiteral c) :
    readWord .bare (xs ++ cs) = (readWord .bare cs).map fun (w, r) => (xs ++ w, r) := by
  induction xs with
  | nil => simp
  | cons c xs ih =>
    obtain ⟨hc, hxs⟩ := List.forall_mem_cons.1 h
    rw [List.cons_append, readWord_literal hc, ih hxs, Option.map_map]
    rfl

/-- A text that means to a shell what it says where it stands in a word. -/
def IsSafe (s : String) : Prop :=
  ∀ c ∈ s.toList, IsLiteral c

theorem isSafe_of_all {s : String} (h : s.toList.all (IsLiteral ·) = true) : IsSafe s := by
  intro c hc
  simpa using List.all_eq_true.1 h c hc

theorem IsSafe.append {s t : String} (hs : IsSafe s) (ht : IsSafe t) : IsSafe (s ++ t) := by
  intro c hc
  rw [String.toList_append, List.mem_append] at hc
  exact hc.elim (hs c) (ht c)

/-- A text that means to a shell what it says. -/
def IsPlain (s : String) : Prop :=
  ∀ c ∈ s.toList, needsQuotes c = false

theorem isPlain_of_all {s : String} (h : s.toList.all (!needsQuotes ·) = true) : IsPlain s := by
  intro c hc
  simpa using List.all_eq_true.1 h c hc

theorem IsPlain.isSafe {s : String} (h : IsPlain s) : IsSafe s :=
  fun c hc => isLiteral_of_needsQuotes (h c hc)

theorem IsPlain.append {s t : String} (hs : IsPlain s) (ht : IsPlain t) : IsPlain (s ++ t) := by
  intro c hc
  rw [String.toList_append, List.mem_append] at hc
  exact hc.elim (hs c) (ht c)

theorem readWord_plain (h : ∀ c ∈ cs, needsQuotes c = false) (hrest : Ends rest) :
    readWord .bare (cs ++ rest) = some (cs, rest) := by
  rw [readWord_literals fun c hc => isLiteral_of_needsQuotes (h c hc), readWord_of_ends hrest]
  simp

/-- A shell reads a quoted text back as the text. -/
theorem readWord_quote (s : String) (h : Ends rest) :
    readWord .bare ((quote s).toList ++ rest) = some (s.toList, rest) := by
  rw [quote, String.toList_ofList, quoteChars]
  split
  · simp only [List.cons_append, List.append_assoc, List.nil_append]
    exact readWord_quoted h
  · next hs =>
    refine readWord_plain (fun c hc => ?_) h
    simp only [Bool.or_eq_true, not_or, List.any_eq_true, not_exists, not_and] at hs
    simpa using hs.2 c hc

end RecipeFlow.Shell
