import RecipeFlow.Proofs.Text.Split
import RecipeFlow.Proofs.Text.Utf8
import RecipeFlow.Table
import RecipeFlow.Url.Basic
import RecipeFlow.Url.Percent

/-! Form encoding, and its two readers: a path takes a plus sign for what it is, a form takes it for
a space. -/
namespace RecipeFlow.Url

open Text

variable {b : UInt8} {bs : List UInt8} {c : Char} {s : String} {f : Char → Char}
  {p : String × String} {ps : List (String × String)}

/-- What form encoding writes for a character. -/
def formChar (c : Char) : List Char :=
  if c = ' ' then ['+'] else if isFormSafe c then [c] else (encodeChar c).flatMap escapeByte

theorem toList_formEncode (s : String) : (formEncode s).toList = s.toList.flatMap formChar := by
  rw [formEncode, String.toList_ofList]
  rfl

theorem isFormSafe_hexDigit : ∀ n < 16, isFormSafe (hexDigit n) = true := by
  decide

theorem toNat_of_isFormSafe (h : isFormSafe c = true) : c.toNat < 0x80 := by
  simp only [isFormSafe, isAsciiLetter, isDigit, Bool.or_eq_true, Bool.and_eq_true,
    decide_eq_true_eq, List.contains_iff_mem, List.mem_cons, List.not_mem_nil, or_false] at h
  have hle : c ≤ 'z' := by
    rcases h with ((⟨-, h⟩ | ⟨-, h⟩) | ⟨-, h⟩) | rfl | rfl | rfl | rfl
    · exact h
    · exact Char.le_trans h (by decide)
    · exact Char.le_trans h (by decide)
    all_goals decide
  exact Nat.lt_of_le_of_lt (UInt32.le_iff_toNat_le.1 (Char.le_def.1 hle)) (by decide)

theorem mem_escapeByte (h : c ∈ escapeByte b) : isFormSafe c = true ∨ c = '%' := by
  have hb : b.toNat < 256 := b.toNat_lt
  simp only [escapeByte, List.mem_cons, List.not_mem_nil, or_false] at h
  rcases h with rfl | rfl | rfl
  · exact .inr rfl
  · exact .inl (isFormSafe_hexDigit _ (by omega))
  · exact .inl (isFormSafe_hexDigit _ (by omega))

/-- Nothing is written but safe characters, plus signs and the marks of escaped bytes. -/
theorem mem_formEncode (h : c ∈ (formEncode s).toList) :
    isFormSafe c = true ∨ c = '+' ∨ c = '%' := by
  rw [toList_formEncode] at h
  obtain ⟨d, -, h⟩ := List.mem_flatMap.1 h
  unfold formChar at h
  split at h
  · exact .inr (.inl (List.mem_singleton.1 h))
  · split at h
    · next hsafe =>
      rw [List.mem_singleton.1 h]
      exact .inl hsafe
    · obtain ⟨b, -, h⟩ := List.mem_flatMap.1 h
      exact (mem_escapeByte h).imp id .inr

theorem notMem_formEncode (h : isFormSafe c = false) (hplus : c ≠ '+') (hmark : c ≠ '%') :
    c ∉ (formEncode s).toList := by
  intro hmem
  rcases mem_formEncode hmem with hsafe | rfl | rfl
  · cases h.symm.trans hsafe
  · exact hplus rfl
  · exact hmark rfl

/-! Decoding. -/

theorem percentDecode_cons (h : b ≠ 0x25) : percentDecode (b :: bs) = b :: percentDecode bs := by
  match bs with
  | [] => rfl
  | [_] => rfl
  | _ :: _ :: _ => rw [percentDecode, if_neg h]

theorem digits?_hexDigits : ∀ n < 256,
    digits? 16 [hexDigit (n / 16), hexDigit (n % 16)] = some n := by
  decide +kernel

/-- An escaped byte is read back. -/
theorem percentDecode_escapeByte (b : UInt8) (bs : List UInt8) :
    percentDecode (encode (escapeByte b) ++ bs) = b :: percentDecode bs := by
  have hb : b.toNat < 256 := b.toNat_lt
  have hdigit : ∀ n < 16, (hexDigit n).toNat < 0x80 :=
    fun n hn => toNat_of_isFormSafe (isFormSafe_hexDigit n hn)
  have hhigh := hdigit (b.toNat / 16) (by omega)
  have hlow := hdigit (b.toNat % 16) (by omega)
  have hbytes : encode (escapeByte b) =
      [0x25, (hexDigit (b.toNat / 16)).toNat.toUInt8, (hexDigit (b.toNat % 16)).toNat.toUInt8] := by
    rw [escapeByte, encode_cons, encode_cons, encode_cons, encodeChar_ascii hhigh,
      encodeChar_ascii hlow]
    rfl
  rw [hbytes, List.cons_append, List.cons_append, List.cons_append, percentDecode, if_pos rfl,
    toNat_toUInt8 (by omega), toNat_toUInt8 (by omega), Char.ofNat_toNat, Char.ofNat_toNat,
    digits?_hexDigits _ hb]
  simp

theorem percentDecode_escape (bs rest : List UInt8) :
    percentDecode (encode (bs.flatMap escapeByte) ++ rest) = bs ++ percentDecode rest := by
  induction bs with
  | nil => rfl
  | cons b bs ih =>
    rw [List.flatMap_cons, encode_append, List.append_assoc, percentDecode_escapeByte, ih,
      List.cons_append]

theorem percentDecode_ascii (h : c.toNat < 0x80) (hmark : c ≠ '%') :
    percentDecode (encodeChar c ++ bs) = encodeChar c ++ percentDecode bs := by
  rw [encodeChar_ascii h]
  refine percentDecode_cons fun hbyte => hmark ?_
  have hcode := congrArg UInt8.toNat hbyte
  rw [toNat_toUInt8 (by omega)] at hcode
  exact Char.toNat_inj.1 hcode

/-- Whatever a reader makes of plus signs, it reads all characters back but spaces, which have
become one of them. -/
theorem percentDecode_formChar (hf : ∀ c, c ≠ '+' → f c = c)
    (hplus : (f '+').toNat < 0x80 ∧ f '+' ≠ '%') (c : Char) (bs : List UInt8) :
    percentDecode (encode ((formChar c).map f) ++ bs) =
      encodeChar (if c = ' ' then f '+' else c) ++ percentDecode bs := by
  have hone : ∀ d, encode [d] = encodeChar d := fun d => List.append_nil _
  unfold formChar
  split
  · rw [List.map_singleton, hone, percentDecode_ascii hplus.1 hplus.2]
  split
  · next hsafe =>
    have hne : c ≠ '+' := by
      rintro rfl
      cases hsafe
    have hmark : c ≠ '%' := by
      rintro rfl
      cases hsafe
    rw [List.map_singleton, hf c hne, hone, percentDecode_ascii (toNat_of_isFormSafe hsafe) hmark]
  · have hescaped : ∀ d ∈ (encodeChar c).flatMap escapeByte, d ≠ '+' := by
      rintro d hd rfl
      obtain ⟨b, -, hd⟩ := List.mem_flatMap.1 hd
      exact absurd (mem_escapeByte hd) (by decide)
    have hfixed : ((encodeChar c).flatMap escapeByte).map f = (encodeChar c).flatMap escapeByte :=
      (List.map_congr_left fun d hd => hf d (hescaped d hd)).trans (List.map_id _)
    rw [hfixed, percentDecode_escape]

theorem percentDecode_map_formEncode (hf : ∀ c, c ≠ '+' → f c = c)
    (hplus : (f '+').toNat < 0x80 ∧ f '+' ≠ '%') (s : String) :
    percentDecode (encode ((formEncode s).toList.map f)) =
      encode (s.toList.map fun c => if c = ' ' then f '+' else c) := by
  rw [toList_formEncode]
  induction s.toList with
  | nil => rfl
  | cons c cs ih =>
    rw [List.flatMap_cons, List.map_append, encode_append, percentDecode_formChar hf hplus, ih,
      List.map_cons, encode_cons]

/-- In a path all is read back but that a space has become a plus sign. -/
theorem percentDecode_formEncode (s : String) : percentDecode (encode (formEncode s).toList) =
    encode (s.toList.map fun c => if c = ' ' then '+' else c) := by
  have hread := percentDecode_map_formEncode (f := id) (fun _ _ => rfl) (by decide) s
  rwa [List.map_id] at hread

/-- A word of a form, in which a plus sign stands for a space. -/
def formWord? (cs : List Char) : Option String :=
  (decode? (percentDecode (encode (cs.map fun c => if c = '+' then ' ' else c)))).map String.ofList

/-- The name and the value of a pair in a form. -/
def pair? (cs : List Char) : Option (String × String) := do
  return (← formWord? (cs.takeWhile (· ≠ '=')), ← formWord? ((cs.dropWhile (· ≠ '=')).drop 1))

/-- The pairs of a form. -/
def pairs (cs : List Char) : List (String × String) :=
  (split '&' cs).filterMap pair?

/-- What a locator's query says under a name. -/
def asked? (u : Url) (name : String) : Option String :=
  (u.query.map pairs).bind (Table.find? name)

theorem formWord?_formEncode (s : String) : formWord? (formEncode s).toList = some s := by
  have hspace : ∀ c ∈ s.toList, (if c = ' ' then ' ' else c) = c := by
    intro c _
    split
    · next h => exact h.symm
    · rfl
  have hread := percentDecode_map_formEncode (f := fun c => if c = '+' then ' ' else c)
    (fun c hc => if_neg hc) (by decide) s
  rw [formWord?, hread, if_pos rfl, List.map_congr_left hspace, List.map_id', decode?_encode]
  exact congrArg some (String.ofList_toList)

/-- A pair whose name and value are in form encoding. -/
def pairChars (p : String × String) : List Char :=
  (formEncode p.1).toList ++ '=' :: (formEncode p.2).toList

theorem pair?_pairChars (p : String × String) : pair? (pairChars p) = some p := by
  have hname : '=' ∉ (formEncode p.1).toList := notMem_formEncode rfl (by decide) (by decide)
  obtain ⟨htake, hdrop⟩ := takeWhile_ne (formEncode p.2).toList hname
  rw [pair?, pairChars, htake, hdrop, formWord?_formEncode, List.drop_one, List.tail_cons,
    formWord?_formEncode]
  rfl

theorem amp_notMem_pairChars (p : String × String) : '&' ∉ pairChars p := by
  rw [pairChars, List.mem_append, List.mem_cons, not_or, not_or]
  exact ⟨notMem_formEncode rfl (by decide) (by decide), by decide,
    notMem_formEncode rfl (by decide) (by decide)⟩

theorem pairs_append (cs ds : List Char) :
    pairs (cs ++ '&' :: ds) = pairs cs ++ pairs ds := by
  rw [pairs, split, splitFrom_append, List.filterMap_append]
  rfl

theorem pairs_pairChars (p : String × String) : pairs (pairChars p) = [p] := by
  rw [pairs, split, splitFrom_of_notMem (amp_notMem_pairChars p)]
  exact List.filterMap_cons_some (pair?_pairChars p)

/-- Pairs that are written one behind the other are read back. -/
theorem pairs_cons (p : String × String) (ps : List (String × String)) :
    pairs (pairChars p ++ ps.flatMap fun q => '&' :: pairChars q) = p :: ps := by
  induction ps generalizing p with
  | nil => rw [List.flatMap_nil, List.append_nil, pairs_pairChars]
  | cons q ps ih =>
    rw [List.flatMap_cons, List.cons_append, pairs_append, pairs_pairChars, ih]
    rfl

end RecipeFlow.Url
