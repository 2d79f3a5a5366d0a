import RecipeFlow.Json.Read
import RecipeFlow.Json.Write
import RecipeFlow.Proofs.Table
import RecipeFlow.Proofs.Text.Digits

/-! Writing and reading: a document without fractions is read as the value that was written. -/
namespace RecipeFlow.Json

open Text

/-- Values that are read as they were written, with so many levels of nesting: they hold no
fraction, whole numbers have 64 bits and members stand in the order of their names. -/
inductive IsPlain : Nat → Json → Prop where
  | null {depth : Nat} : IsPlain depth .null
  | bool {depth : Nat} (b : Bool) : IsPlain depth (.bool b)
  | int {depth : Nat} {i : Int} (h : -(Nat.pow 2 63 : Int) ≤ i ∧ i ≤ maxUnsigned) :
    IsPlain depth (.int i)
  | str {depth : Nat} (s : String) : IsPlain depth (.str s)
  | arr {depth : Nat} {items : List Json} (h : ∀ v ∈ items, IsPlain depth v) :
    IsPlain (depth + 1) (.arr items)
  | obj {depth : Nat} {ms : List (String × Json)} (hkeys : Table.Ascending ms)
    (h : ∀ m ∈ ms, IsPlain depth m.2) : IsPlain (depth + 1) (.obj ms)

variable {acc items : List Json} {c : Char} {cs rest : List Char} {depth fuel n : Nat} {i : Int}
  {k s : String} {ms sofar : List (String × Json)} {v : Json}

/-! Texts. -/

theorem escapeUnit_control : ∀ n < 0x20,
    escapeUnit n = ['\\', 'u', '0', '0', Nat.digitChar (n / 16), Nat.digitChar (n % 16)] ∧
      digits? 16 ['0', '0', Nat.digitChar (n / 16), Nat.digitChar (n % 16)] = some n := by
  decide

theorem escaped?_escapeUnit (rest : List Char) (h : c.toNat < 0x20) :
    ∃ r, escapeUnit c.toNat ++ rest = '\\' :: r ∧ escaped? r = some (c, rest) := by
  obtain ⟨hunit, hdigits⟩ := escapeUnit_control c.toNat h
  refine ⟨'u' :: '0' :: '0' :: Nat.digitChar (c.toNat / 16) ::
    Nat.digitChar (c.toNat % 16) :: rest, by rw [hunit]; rfl, ?_⟩
  have hlow : (0xD800 ≤ c.toNat && c.toNat < 0xDC00) = false := by
    rw [decide_eq_false (by omega), Bool.false_and]
  have hhigh : (0xDC00 ≤ c.toNat && c.toNat < 0xE000) = false := by
    rw [decide_eq_false (by omega), Bool.false_and]
  simp only [escaped?, escapedUnit?, hexUnit?, hdigits, Option.map_some, hlow, hhigh,
    Bool.false_eq_true, if_false, Char.ofNat_toNat]

theorem stringFrom?_backslash {read r : List Char} (h : escaped? r = some (c, rest)) :
    stringFrom? read (fuel + 1) ('\\' :: r) = stringFrom? (c :: read) fuel rest := by
  simp [stringFrom?, h]

/-- Whatever stands for a character is read as that character. -/
theorem stringFrom?_escapeChar (read : List Char) :
    stringFrom? read (fuel + 1) (escapeChar c ++ rest) = stringFrom? (c :: read) fuel rest := by
  unfold escapeChar
  iterate 7
    split
    · next h =>
      rw [eq_of_beq h]
      exact stringFrom?_backslash rfl
  split
  · next h =>
    obtain ⟨r, hr, hread⟩ := escaped?_escapeUnit rest h
    rw [hr]
    exact stringFrom?_backslash hread
  · simp [stringFrom?, *]

theorem stringFrom?_chars (read cs : List Char) (h : cs.length < fuel) :
    stringFrom? read fuel (cs.flatMap escapeChar ++ '"' :: rest) =
      some (String.ofList (read.reverse ++ cs), rest) := by
  induction cs generalizing read fuel with
  | nil =>
    obtain ⟨fuel, rfl⟩ := Nat.exists_eq_succ_of_ne_zero (Nat.ne_zero_of_lt h)
    simp [stringFrom?]
  | cons c cs ih =>
    obtain ⟨fuel, rfl⟩ := Nat.exists_eq_succ_of_ne_zero (Nat.ne_zero_of_lt h)
    rw [List.flatMap_cons, List.append_assoc, stringFrom?_escapeChar,
      ih _ (Nat.lt_of_succ_lt_succ h)]
    simp

theorem escapeChar_ne_nil (c : Char) : escapeChar c ≠ [] := by
  unfold escapeChar escapeUnit
  repeat' split
  all_goals simp

theorem length_le_flatMap_escapeChar (cs : List Char) :
    cs.length ≤ (cs.flatMap escapeChar).length := by
  induction cs with
  | nil => exact Nat.le_refl _
  | cons c cs ih =>
    have hc := List.length_pos_iff.2 (escapeChar_ne_nil c)
    rw [List.flatMap_cons, List.length_append, List.length_cons]
    omega

theorem string?_stringChars (s : String) (rest : List Char) :
    ∃ cs, stringChars s ++ rest = '"' :: cs ∧ string? cs = some (s, rest) := by
  refine ⟨s.toList.flatMap escapeChar ++ '"' :: rest, by simp [stringChars], ?_⟩
  have hlength := length_le_flatMap_escapeChar s.toList
  rw [string?, stringFrom?_chars [] s.toList (by rw [List.length_append]; omega)]
  simp

/-! Whole numbers. -/

/-- What may follow a value. -/
def IsEnd (rest : List Char) : Prop :=
  ∀ c r, rest = c :: r → c = ',' ∨ c = ']' ∨ c = '\x7d'

theorem IsEnd.cons (c : Char) (h : c = ',' ∨ c = ']' ∨ c = '\x7d') : IsEnd (c :: rest) := by
  intro d r heq
  cases heq
  exact h

theorem isDigit_of_isEnd (h : IsEnd (c :: rest)) : isDigit c = false := by
  rcases h c rest rfl with rfl | rfl | rfl <;> rfl

theorem takeWhile_toDigits (h : IsEnd rest) :
    (Nat.toDigits 10 n ++ rest).takeWhile isDigit = Nat.toDigits 10 n ∧
      (Nat.toDigits 10 n ++ rest).dropWhile isDigit = rest := by
  have hdigit : ∀ c ∈ Nat.toDigits 10 n, isDigit c = true := fun c => isDigit_of_mem_toDigits
  rw [List.takeWhile_append_of_pos hdigit, List.dropWhile_append_of_pos hdigit]
  cases rest with
  | nil => simp
  | cons c rest => simp [isDigit_of_isEnd h]

/-- Digits without a zero in front are a number. -/
theorem number?_toDigits (negative : Bool) (hend : IsEnd rest)
    (h : whole? negative (Nat.toDigits 10 n) = some v) :
    number? negative (Nat.toDigits 10 n ++ rest) = some (v, rest) := by
  obtain ⟨htake, hdrop⟩ := takeWhile_toDigits (n := n) hend
  have hlead : ((Nat.toDigits 10 n).isEmpty || ((Nat.toDigits 10 n).head? == some '0' &&
      decide ((Nat.toDigits 10 n).length > 1))) = false := by
    rcases Nat.eq_zero_or_pos n with rfl | hpos
    · rfl
    · simp [head?_toDigits hpos, Nat.toDigits_ne_nil]
  simp only [number?, htake, hdrop, hlead, Bool.false_eq_true, if_false]
  cases rest with
  | nil => simp [h]
  | cons c rest =>
    rcases hend c rest rfl with rfl | rfl | rfl
    all_goals simp [h]

theorem ne_of_isDigit (d : Char) (hd : isDigit d = false) (h : isDigit c = true) : c ≠ d := by
  rintro rfl
  cases hd.symm.trans h

theorem isSpace_of_isDigit (h : isDigit c = true) : isSpace c = false := by
  simp [isSpace, ne_of_isDigit ' ' rfl h, ne_of_isDigit '\n' rfl h, ne_of_isDigit '\t' rfl h,
    ne_of_isDigit '\r' rfl h]

theorem value?_of_isDigit (h : isDigit c = true) :
    value? (fuel + 1) depth (c :: cs) = number? false (c :: cs) := by
  have hskip : (c :: cs).dropWhile isSpace = c :: cs := by simp [isSpace_of_isDigit h]
  rw [value?, hskip]
  simp [h, ne_of_isDigit '"' rfl h, ne_of_isDigit '[' rfl h, ne_of_isDigit '\x7b' rfl h,
    ne_of_isDigit '-' rfl h]

theorem toDigits_eq_cons (n : Nat) :
    ∃ c cs, Nat.toDigits 10 n = c :: cs ∧ isDigit c = true := by
  obtain ⟨c, cs, hcs⟩ := List.exists_cons_of_ne_nil (@Nat.toDigits_ne_nil n 10)
  exact ⟨c, cs, hcs, isDigit_of_mem_toDigits (hcs ▸ List.mem_cons_self)⟩

theorem compactChars_ofNat (n : Nat) : compactChars (.int n) = Nat.toDigits 10 n := by
  rw [compactChars]
  exact Nat.toList_repr

theorem compactChars_negSucc (n : Nat) :
    compactChars (.int (.negSucc n)) = '-' :: Nat.toDigits 10 (n + 1) := by
  have hsign : toString (Int.negSucc n) = "-" ++ Nat.repr (n + 1) := rfl
  rw [compactChars, hsign, String.toList_append, Nat.toList_repr]
  rfl

/-! Values. -/

/-- A value is read back before anything that ends it. -/
def Reads (depth : Nat) (v : Json) : Prop :=
  ∀ fuel rest, 2 * v.compactChars.length ≤ fuel → IsEnd rest →
    value? fuel depth (v.compactChars ++ rest) = some (v, rest)

theorem reads_of_succ (hne : v.compactChars ≠ [])
    (h : ∀ fuel rest, 2 * v.compactChars.length ≤ fuel + 1 → IsEnd rest →
      value? (fuel + 1) depth (v.compactChars ++ rest) = some (v, rest)) : Reads depth v := by
  intro fuel rest hfuel hend
  have hpos := List.length_pos_iff.2 hne
  obtain ⟨fuel, rfl⟩ := Nat.exists_eq_succ_of_ne_zero (n := fuel) (by omega)
  exact h fuel rest hfuel hend

theorem reads_ofNat (h : n ≤ maxUnsigned) : Reads depth (.int n) := by
  have hwhole : whole? false (Nat.toDigits 10 n) = some (.int n) := by
    simp [whole?, digits?_toDigits, h]
  obtain ⟨c, cs, hcs, hdigit⟩ := toDigits_eq_cons n
  have htext : compactChars (.int n) = c :: cs := (compactChars_ofNat n).trans hcs
  refine reads_of_succ (by simp [htext]) fun fuel rest _ hend => ?_
  rw [htext, List.cons_append, value?_of_isDigit hdigit, ← List.cons_append, ← hcs,
    number?_toDigits false hend hwhole]

theorem reads_negSucc (h : n + 1 ≤ Nat.pow 2 63) : Reads depth (.int (.negSucc n)) := by
  have hwhole : whole? true (Nat.toDigits 10 (n + 1)) = some (.int (.negSucc n)) := by
    simp [whole?, digits?_toDigits, h, Int.negSucc_eq]
  refine reads_of_succ (by simp [compactChars_negSucc]) fun fuel rest _ hend => ?_
  rw [compactChars_negSucc, List.cons_append, ← number?_toDigits true hend hwhole]
  simp [value?, isSpace]

theorem reads_int (h : -(Nat.pow 2 63 : Int) ≤ i ∧ i ≤ maxUnsigned) :
    Reads depth (.int i) := by
  cases i with
  | ofNat n => exact reads_ofNat (Int.ofNat_le.1 h.2)
  | negSucc n => exact reads_negSucc (by omega)

theorem reads_str (s : String) : Reads depth (.str s) := by
  refine reads_of_succ (by simp [compactChars, stringChars]) fun fuel rest _ _ => ?_
  obtain ⟨cs, htext, hread⟩ := string?_stringChars s rest
  rw [compactChars, htext]
  simp [value?, isSpace, hread]

/-- Nothing that is written begins with a blank or a bracket that closes. -/
theorem compactChars_eq_cons (h : IsPlain depth v) :
    ∃ c cs, v.compactChars = c :: cs ∧ isSpace c = false ∧ c ≠ ']' := by
  cases h with
  | null => exact ⟨'n', _, rfl, rfl, by decide⟩
  | bool b => cases b <;> exact ⟨_, _, rfl, rfl, by decide⟩
  | @int _ i h =>
    cases i with
    | ofNat n =>
      obtain ⟨c, cs, hcs, hdigit⟩ := toDigits_eq_cons n
      exact ⟨c, cs, (compactChars_ofNat n).trans hcs, isSpace_of_isDigit hdigit,
        ne_of_isDigit ']' rfl hdigit⟩
    | negSucc n => exact ⟨'-', _, compactChars_negSucc n, rfl, by decide⟩
  | str s => exact ⟨'"', _, rfl, rfl, by decide⟩
  | arr _ => exact ⟨'[', _, by rw [compactChars]; rfl, rfl, by decide⟩
  | obj _ _ => exact ⟨'\x7b', _, by rw [compactChars]; rfl, rfl, by decide⟩

theorem items?_last (hv : Reads depth v) (hfuel : 2 * v.compactChars.length ≤ fuel) :
    items? (fuel + 1) depth acc (v.compactChars ++ ']' :: rest) =
      some (.arr (acc.reverse ++ [v]), rest) := by
  simp [items?, hv fuel _ hfuel (.cons ']' (by decide)), isSpace]

theorem items?_cons (hv : Reads depth v) (hfuel : 2 * v.compactChars.length ≤ fuel) :
    items? (fuel + 1) depth acc (v.compactChars ++ ',' :: rest) =
      items? fuel depth (v :: acc) rest := by
  simp [items?, hv fuel _ hfuel (.cons ',' (by decide)), isSpace]

/-- Items that are read back alone are read back one behind the other. -/
theorem items?_compactItems (h : ∀ w ∈ v :: items, Reads depth w)
    (hfuel : 2 * (v.compactChars.length + (compactItems false items).length) ≤ fuel) :
    items? (fuel + 1) depth acc (v.compactChars ++ (compactItems false items ++ ']' :: rest)) =
      some (.arr (acc.reverse ++ v :: items), rest) := by
  have hv := h v List.mem_cons_self
  induction items generalizing v acc fuel with
  | nil => exact items?_last hv (by omega)
  | cons w items ih =>
    have hitems : compactItems false (w :: items) =
        ',' :: (w.compactChars ++ compactItems false items) := by simp [compactItems]
    rw [hitems, List.length_cons, List.length_append] at hfuel
    obtain ⟨fuel, rfl⟩ := Nat.exists_eq_succ_of_ne_zero (n := fuel) (by omega)
    have hrest : ∀ u ∈ w :: items, Reads depth u := fun u hu => h u (List.mem_cons_of_mem _ hu)
    rw [hitems, List.cons_append, List.append_assoc, items?_cons hv (by omega),
      ih hrest (by omega) (hrest w List.mem_cons_self)]
    simp

theorem members?_last (hv : Reads depth v) (hfuel : 2 * v.compactChars.length ≤ fuel) :
    members? (fuel + 1) depth sofar (stringChars k ++ ':' :: (v.compactChars ++ '\x7d' :: rest)) =
      some (.mk (sofar.reverse ++ [(k, v)]), rest) := by
  obtain ⟨cs, hcs, hkey⟩ := string?_stringChars k (':' :: (v.compactChars ++ '\x7d' :: rest))
  rw [hcs, members?]
  simp [isSpace, hkey, hv fuel _ hfuel (.cons '\x7d' (by decide))]

theorem members?_cons (hv : Reads depth v) (hfuel : 2 * v.compactChars.length ≤ fuel) :
    members? (fuel + 1) depth sofar (stringChars k ++ ':' :: (v.compactChars ++ ',' :: rest)) =
      members? fuel depth ((k, v) :: sofar) rest := by
  obtain ⟨cs, hcs, hkey⟩ := string?_stringChars k (':' :: (v.compactChars ++ ',' :: rest))
  rw [hcs, members?]
  simp [isSpace, hkey, hv fuel _ hfuel (.cons ',' (by decide))]

/-- So are members. -/
theorem members?_compactMembers (h : ∀ m ∈ (k, v) :: ms, Reads depth m.2)
    (hfuel : 2 * (v.compactChars.length + (compactMembers false ms).length) ≤ fuel) :
    members? (fuel + 1) depth sofar (stringChars k ++ ':' ::
        (v.compactChars ++ (compactMembers false ms ++ '\x7d' :: rest))) =
      some (.mk (sofar.reverse ++ (k, v) :: ms), rest) := by
  have hv : Reads depth v := h (k, v) List.mem_cons_self
  induction ms generalizing k v sofar fuel with
  | nil => exact members?_last hv (by omega)
  | cons m ms ih =>
    obtain ⟨j, w⟩ := m
    have hmembers : compactMembers false ((j, w) :: ms) =
        ',' :: (stringChars j ++ ':' :: (w.compactChars ++ compactMembers false ms)) := by
      simp [compactMembers]
    rw [hmembers, List.length_cons, List.length_append, List.length_cons,
      List.length_append] at hfuel
    obtain ⟨fuel, rfl⟩ := Nat.exists_eq_succ_of_ne_zero (n := fuel) (by omega)
    have hrest : ∀ u ∈ (j, w) :: ms, Reads depth u.2 :=
      fun u hu => h u (List.mem_cons_of_mem _ hu)
    rw [hmembers, List.cons_append, members?_cons hv (by omega), List.append_assoc,
      List.cons_append, List.append_assoc, ih hrest (by omega) (hrest _ List.mem_cons_self)]
    simp

theorem value?_bracket (hspace : isSpace c = false) (hne : c ≠ ']') :
    value? (fuel + 1) (depth + 2) ('[' :: c :: cs) = items? fuel (depth + 1) [] (c :: cs) := by
  have hstart : ('[' :: c :: cs).dropWhile isSpace = '[' :: c :: cs := rfl
  have hskip : (c :: cs).dropWhile isSpace = c :: cs := by simp [hspace]
  rw [value?, hstart]
  simp [hskip, hne]

theorem value?_brace (hspace : isSpace c = false) (hne : c ≠ '\x7d') :
    value? (fuel + 1) (depth + 2) ('\x7b' :: c :: cs) = members? fuel (depth + 1) [] (c :: cs) := by
  have hstart : ('\x7b' :: c :: cs).dropWhile isSpace = '\x7b' :: c :: cs := rfl
  have hskip : (c :: cs).dropWhile isSpace = c :: cs := by simp [hspace]
  rw [value?, hstart]
  simp [hskip, hne]

theorem reads_arr (h : ∀ v ∈ items, IsPlain depth v)
    (hreads : ∀ v ∈ items, Reads (depth + 1) v) :
    Reads (depth + 2) (.arr items) := by
  refine reads_of_succ (by simp [compactChars]) fun fuel rest hfuel _ => ?_
  cases items with
  | nil => simp [compactChars, compactItems, value?, isSpace]
  | cons v items =>
    have htext : compactChars (.arr (v :: items)) ++ rest =
        '[' :: (v.compactChars ++ (compactItems false items ++ ']' :: rest)) := by
      simp [compactChars, compactItems]
    have hlength : (compactChars (.arr (v :: items))).length =
        v.compactChars.length + (compactItems false items).length + 2 := by
      simp [compactChars, compactItems, Nat.add_assoc]
    obtain ⟨fuel, rfl⟩ := Nat.exists_eq_succ_of_ne_zero (n := fuel) (by omega)
    obtain ⟨c, cs, hcs, hspace, hne⟩ := compactChars_eq_cons (h v List.mem_cons_self)
    have hitems : items? (fuel + 1) (depth + 1) []
          (v.compactChars ++ (compactItems false items ++ ']' :: rest)) =
        some (.arr (v :: items), rest) := items?_compactItems hreads (by omega)
    rw [hcs, List.cons_append] at hitems
    rw [htext, hcs, List.cons_append, value?_bracket hspace hne, hitems]

theorem reads_obj (hkeys : Table.Ascending ms) (hreads : ∀ m ∈ ms, Reads (depth + 1) m.2) :
    Reads (depth + 2) (.obj ms) := by
  refine reads_of_succ (by simp [compactChars]) fun fuel rest hfuel _ => ?_
  cases ms with
  | nil => simp [compactChars, compactMembers, value?, isSpace]
  | cons m ms =>
    obtain ⟨k, v⟩ := m
    have htext : compactChars (.obj ((k, v) :: ms)) ++ rest = '\x7b' :: (stringChars k ++
        ':' :: (v.compactChars ++ (compactMembers false ms ++ '\x7d' :: rest))) := by
      simp [compactChars, compactMembers]
    have hlength : v.compactChars.length + (compactMembers false ms).length + 2 ≤
        (compactChars (.obj ((k, v) :: ms))).length := by
      simp [compactChars, compactMembers]
      omega
    obtain ⟨fuel, rfl⟩ := Nat.exists_eq_succ_of_ne_zero (n := fuel) (by omega)
    have hmembers : members? (fuel + 1) (depth + 1) [] (stringChars k ++ ':' ::
          (v.compactChars ++ (compactMembers false ms ++ '\x7d' :: rest))) =
        some (mk ((k, v) :: ms), rest) := members?_compactMembers hreads (by omega)
    have hmk : mk ((k, v) :: ms) = .obj ((k, v) :: ms) := congrArg Json.obj hkeys.ofList_eq
    have hquote : stringChars k = '"' :: (k.toList.flatMap escapeChar ++ ['"']) := rfl
    rw [hquote, List.cons_append] at hmembers
    rw [htext, hquote, List.cons_append, value?_brace rfl (by decide), hmembers, hmk]

theorem IsPlain.reads (h : IsPlain depth v) : Reads (depth + 1) v := by
  induction h with
  | null =>
    refine reads_of_succ (by simp [compactChars]) fun fuel rest _ _ => ?_
    simp [compactChars, value?, isSpace, isDigit, word?]
  | bool b =>
    refine reads_of_succ (by cases b <;> simp [compactChars]) fun fuel rest _ _ => ?_
    cases b
    all_goals simp [compactChars, value?, isSpace, isDigit, word?]
  | int h => exact reads_int h
  | str s => exact reads_str s
  | arr h ih => exact reads_arr h ih
  | obj hkeys h ih => exact reads_obj hkeys ih

/-- What is written without fractions and not too deep is read back. -/
theorem parse?_compact (h : IsPlain 127 v) : parse? v.compact = some v := by
  have hread := h.reads (2 * v.compactChars.length + 2) [] (by omega) nofun
  rw [List.append_nil] at hread
  simp [parse?, compact, parseChars?, hread]

end RecipeFlow.Json
