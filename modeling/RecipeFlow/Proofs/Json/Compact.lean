import RecipeFlow.Proofs.Json.Reading

/-! Compact texts of documents: which characters they are made of. Whatever strings a document
holds, its text stays on one line. -/
namespace RecipeFlow

open Text

variable {c : Char} {cs : List Char}

/-- The characters that stand in numbers, and in what stands for a number that there is none for. -/
def IsNumeral (c : Char) : Prop :=
  isDigit c = true ∨ c ∈ ['-', '+', '.', 'e', 'n', 'u', 'l']

instance : Decidable (IsNumeral c) :=
  inferInstanceAs (Decidable (_ ∨ _))

/-- Characters that all stand in numbers. -/
def AreNumerals (cs : List Char) : Prop :=
  ∀ c ∈ cs, IsNumeral c

instance : Decidable (AreNumerals cs) :=
  List.decidableBAll IsNumeral cs

namespace AreNumerals

theorem append {ds : List Char} (hcs : AreNumerals cs) (hds : AreNumerals ds) :
    AreNumerals (cs ++ ds) := by
  intro c hc
  exact (List.mem_append.1 hc).elim (hcs c) (hds c)

theorem sublist {ds : List Char} (hcs : AreNumerals cs) (h : ds.Sublist cs) : AreNumerals ds :=
  fun c hc => hcs c (h.subset hc)

theorem replicate (n : Nat) (h : IsNumeral c) : AreNumerals (List.replicate n c) := by
  intro d hd
  rw [List.eq_of_mem_replicate hd]
  exact h

theorem nat (n : Nat) : AreNumerals (toString n).toList := by
  intro c hc
  rw [show (toString n).toList = Nat.toDigits 10 n from Nat.toList_repr] at hc
  exact .inl (isDigit_of_mem_toDigits hc)

end AreNumerals

namespace Binary64

theorem areNumerals_digits (m : Nat) (e : Int) : AreNumerals (shortest m e).digits := by
  unfold shortest
  split
  · show AreNumerals ['0']
    decide
  · refine AreNumerals.sublist ?_ (List.reverse_sublist.2 (List.dropWhile_sublist _))
    rw [List.reverse_reverse]
    exact AreNumerals.nat _

theorem areNumerals_positional {d : Digits} (h : AreNumerals d.digits) :
    AreNumerals (positional d) := by
  have hzero : IsNumeral '0' := by decide
  have hpoint : AreNumerals ['.'] := by decide
  unfold positional
  split
  · have hstart : AreNumerals ['0', '.'] := by decide
    exact (hstart.append (.replicate _ hzero)).append h
  · have hfront : ∀ m n, AreNumerals (d.digits.take m ++ List.replicate n '0') :=
      fun m n => (h.sublist (List.take_sublist m _)).append (.replicate n hzero)
    refine ((hfront _ _).append hpoint).append ?_
    split
    · decide
    · exact h.sublist (List.drop_sublist _ _)

theorem areNumerals_scientific {d : Digits} (h : AreNumerals d.digits) :
    AreNumerals (scientific d) := by
  refine (((h.sublist (List.take_sublist _ _)).append ?_).append ?_).append (.nat _)
  · split
    · decide
    · have hpoint : AreNumerals ['.'] := by decide
      exact hpoint.append (h.sublist (List.drop_sublist _ _))
  · split <;> decide

theorem areNumerals_documentChars (x : Binary64) : AreNumerals x.documentChars := by
  cases x with
  | infinite s | nan =>
    show AreNumerals ['n', 'u', 'l', 'l']
    decide
  | finite s m e =>
    have hdigits := areNumerals_digits m e
    have hsign : AreNumerals ['-'] := by decide
    have hbody : ∀ b : Bool,
        AreNumerals (if b then positional (shortest m e) else scientific (shortest m e)) := by
      intro b
      cases b
      · exact areNumerals_scientific hdigits
      · exact areNumerals_positional hdigits
    cases s
    · exact hbody _
    · exact hsign.append (hbody _)

end Binary64

namespace Json

theorem areNumerals_int (i : Int) : AreNumerals (compactChars (.int i)) := by
  cases i with
  | ofNat n => exact .nat n
  | negSucc n =>
    have hsign : AreNumerals ['-'] := by decide
    rw [compactChars_negSucc, ← Nat.toList_repr]
    exact hsign.append (.nat (n + 1))

theorem newline_notMem_escapeUnit : ∀ n < 0x20, '\n' ∉ escapeUnit n := by
  decide

theorem newline_notMem_escapeChar (c : Char) : '\n' ∉ escapeChar c := by
  unfold escapeChar
  iterate 7
    split
    · decide
  split
  · next h => exact newline_notMem_escapeUnit c.toNat h
  · next h =>
    rw [List.mem_singleton]
    rintro rfl
    exact h (by decide)

theorem newline_notMem_stringChars (s : String) : '\n' ∉ stringChars s := by
  simp [stringChars, newline_notMem_escapeChar]

mutual

theorem newline_notMem_compactChars : ∀ v : Json, '\n' ∉ v.compactChars
  | .null => by decide
  | .bool b => by cases b <;> decide
  | .int i => fun h => absurd (areNumerals_int i _ h) (by decide)
  | .float x => fun h => absurd (x.areNumerals_documentChars _ h) (by decide)
  | .str s => newline_notMem_stringChars s
  | .arr items => by
    have hitems := newline_notMem_compactItems true items
    simp [compactChars, hitems]
  | .obj members => by
    have hmembers := newline_notMem_compactMembers true members
    simp [compactChars, hmembers]

theorem newline_notMem_compactItems :
    ∀ (first : Bool) (items : List Json), '\n' ∉ compactItems first items
  | first, [] => List.not_mem_nil
  | first, v :: r => by
    have hv := newline_notMem_compactChars v
    have hr := newline_notMem_compactItems false r
    cases first <;> simp [compactItems, hv, hr]

theorem newline_notMem_compactMembers :
    ∀ (first : Bool) (members : List (String × Json)), '\n' ∉ compactMembers first members
  | first, [] => List.not_mem_nil
  | first, (k, v) :: r => by
    have hk := newline_notMem_stringChars k
    have hv := newline_notMem_compactChars v
    have hr := newline_notMem_compactMembers false r
    cases first <;> simp [compactMembers, hk, hv, hr]

end

/-- The text of a document is one line. -/
theorem newline_notMem_compact (v : Json) : '\n' ∉ v.compact.toList := by
  rw [compact, String.toList_ofList]
  exact newline_notMem_compactChars v

/-- The text of a document starts as a number does, or as another value. -/
theorem head?_compact {v : Json} (h : v.compact.toList.head? = some c) :
    IsNumeral c ∨ c ∈ ['t', 'f', '"', '[', '\x7b'] := by
  rw [compact, String.toList_ofList] at h
  have hnumeral : ∀ {ds : List Char}, AreNumerals ds → ds.head? = some c → IsNumeral c :=
    fun hds hhead => hds c (List.mem_of_head? hhead)
  cases v with
  | null =>
    cases h
    decide
  | bool b => cases b <;> cases h <;> decide
  | int i => exact .inl (hnumeral (areNumerals_int i) h)
  | float x => exact .inl (hnumeral x.areNumerals_documentChars h)
  | str _ | arr _ | obj _ =>
    cases h
    decide

end Json

end RecipeFlow
