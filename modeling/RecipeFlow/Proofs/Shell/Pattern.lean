import RecipeFlow.Proofs.Shell.Word

/-! Patterns that a shell expands to paths: how it reads one, and which paths it takes for it. -/
namespace RecipeFlow.Shell

/-- A part of an unquoted word that may stand for several paths. -/
inductive PatternPart where
  | char (c : Char)
  /-- Any characters of one name. -/
  | star
  deriving DecidableEq, Repr

variable {c : Char} {cs rest xs : List Char} {first : Bool}

/-- The pattern that a word without quotes is, and what is behind the word. -/
def readPattern : List Char → Option (List PatternPart × List Char)
  | [] => some ([], [])
  | c :: cs =>
    if c ∈ separators then some ([], c :: cs)
    else if c = '*' then (readPattern cs).map fun (ps, r) => (.star :: ps, r)
    else if needsQuotes c then none
    else (readPattern cs).map fun (ps, r) => (.char c :: ps, r)

/-- Whether a test holds of a text or, as far as the text goes on in one name, of an end of it. -/
def holdsLater (f : Bool → List Char → Bool) : Bool → List Char → Bool
  | first, [] => f first []
  | first, c :: cs => f first (c :: cs) || (c != '/' && holdsLater f false cs)

/-- Whether a path is one of a pattern; `first` says whether a name starts here. A star takes no
slash, and no dot that a name starts with. -/
def isMatch : List PatternPart → Bool → List Char → Bool
  | [], _, cs => cs.isEmpty
  | .char _ :: _, _, [] => false
  | .char c :: ps, _, d :: cs => c == d && isMatch ps (c == '/') cs
  | .star :: ps, first, cs => !(first && cs.head? == some '.') && holdsLater (isMatch ps) first cs

theorem readPattern_of_ends (h : Ends rest) : readPattern rest = some ([], rest) := by
  cases rest with
  | nil => rfl
  | cons c cs => rw [readPattern, if_pos (h c rfl)]

theorem readPattern_cons (h : needsQuotes c = false) :
    readPattern (c :: cs) = (readPattern cs).map fun (ps, r) => (.char c :: ps, r) := by
  have hspecial : ∀ d ∈ '*' :: separators, needsQuotes d = true :=
    List.all_eq_true.1 (by decide)
  have hc : c ∉ '*' :: separators := by
    intro hmem
    cases h.symm.trans (hspecial c hmem)
  rw [List.mem_cons, not_or] at hc
  rw [readPattern, if_neg hc.2, if_neg hc.1, h, if_neg Bool.false_ne_true]

/-- A text that needs no quotes, with a star behind it, is read as just that. -/
theorem readPattern_star (h : ∀ c ∈ xs, needsQuotes c = false) (hrest : Ends rest) :
    readPattern (xs ++ '*' :: rest) = some (xs.map .char ++ [.star], rest) := by
  induction xs with
  | nil =>
    rw [List.nil_append, readPattern, if_neg (by decide), if_pos rfl, readPattern_of_ends hrest]
    rfl
  | cons c xs ih =>
    obtain ⟨hc, hxs⟩ := List.forall_mem_cons.1 h
    rw [List.cons_append, readPattern_cons hc, ih hxs]
    rfl

theorem isMatch_char {ps : List PatternPart} :
    isMatch (.char c :: ps) first cs ↔ ∃ ds, cs = c :: ds ∧ isMatch ps (c == '/') ds := by
  cases cs with
  | nil => simp [isMatch]
  | cons d ds =>
    rw [isMatch, Bool.and_eq_true, beq_iff_eq]
    constructor
    · rintro ⟨rfl, h⟩
      exact ⟨ds, rfl, h⟩
    · rintro ⟨_, heq, h⟩
      cases heq
      exact ⟨rfl, h⟩

/-- A star at the end takes the rest of a name. -/
theorem holdsLater_nil : holdsLater (isMatch []) first cs ↔ '/' ∉ cs := by
  induction cs generalizing first with
  | nil => simp [holdsLater, isMatch]
  | cons c cs ih =>
    rw [holdsLater, isMatch, List.isEmpty_cons, Bool.false_or, Bool.and_eq_true, ih,
      List.mem_cons, not_or, bne_iff_ne, ne_comm]

/-- The paths of a text with a star behind it are those that go on behind the text in one name, if
the star is not a name's start. -/
theorem isMatch_star (h : xs.getLast? = some c) (hc : c ≠ '/') :
    isMatch (xs.map .char ++ [.star]) first cs ↔ ∃ ys, cs = xs ++ ys ∧ '/' ∉ ys := by
  induction xs generalizing first cs with
  | nil => cases h
  | cons x xs ih =>
    have htail : ∀ ds, isMatch (xs.map .char ++ [.star]) (x == '/') ds ↔
        ∃ ys, ds = xs ++ ys ∧ '/' ∉ ys := by
      intro ds
      cases xs with
      | nil =>
        obtain rfl : x = c := Option.some.inj h
        have hstar : isMatch [.star] false ds = holdsLater (isMatch []) false ds := rfl
        simp only [List.map_nil, List.nil_append, beq_eq_false_iff_ne.2 hc, hstar, holdsLater_nil,
          exists_eq_left']
      | cons y xs =>
        rw [List.getLast?_cons_cons] at h
        exact ih h
    rw [List.map_cons, List.cons_append, isMatch_char]
    simp only [htail]
    constructor
    · rintro ⟨_, rfl, ys, rfl, hys⟩
      exact ⟨ys, rfl, hys⟩
    · rintro ⟨ys, rfl, hys⟩
      exact ⟨_, rfl, ys, rfl, hys⟩

end RecipeFlow.Shell
