import Mathlib.Data.List.Flatten
import RecipeFlow.Proofs.Url.Encoding
import RecipeFlow.Proofs.Url.Segments

/-! Decoding segments of a path: encoding them changes nothing of what they are decoded to, and
nothing gets longer. -/
namespace RecipeFlow.Url

open Text

variable {b : UInt8} {as bs : List UInt8} {c : Char} {cs ds : List Char} {set : Char → Bool}

/-! What the bytes of a character start with. -/

theorem digitValue?_of_le (h : 0x80 ≤ c.toNat) : digitValue? 16 c = none := by
  have hgt : ∀ d : Char, d.toNat < 0x80 → ¬ c ≤ d := by
    intro d hd hle
    have hnat : c.toNat ≤ d.toNat := UInt32.le_iff_toNat_le.1 (Char.le_def.1 hle)
    omega
  simp [digitValue?, isDigit, hgt '9' (by decide), hgt 'f' (by decide), hgt 'F' (by decide)]

theorem le_of_mem_encodeChar (h : 0x80 ≤ c.toNat) (hb : b ∈ encodeChar c) : 0x80 ≤ b.toNat := by
  have hbound : c.toNat < 0x110000 := by
    have hvalid : c.toNat < 0xD800 ∨ 0xDFFF < c.toNat ∧ c.toNat < 0x110000 := c.valid
    omega
  have hbyte : ∀ n < 256, 0x80 ≤ n → b = n.toUInt8 → 0x80 ≤ b.toNat := by
    rintro n hn hle rfl
    rw [toNat_toUInt8 hn]
    exact hle
  unfold encodeChar at hb
  dsimp only at hb
  split at hb
  · omega
  · split at hb
    · simp only [List.mem_cons, List.not_mem_nil, or_false] at hb
      rcases hb with hb | hb <;> exact hbyte _ (by omega) (by omega) hb
    · split at hb
      · simp only [List.mem_cons, List.not_mem_nil, or_false] at hb
        rcases hb with hb | hb | hb <;> exact hbyte _ (by omega) (by omega) hb
      · simp only [List.mem_cons, List.not_mem_nil, or_false] at hb
        rcases hb with hb | hb | hb | hb <;> exact hbyte _ (by omega) (by omega) hb

theorem encodeChar_ne_nil (c : Char) : encodeChar c ≠ [] := by
  unfold encodeChar
  dsimp only
  split
  · exact List.cons_ne_nil _ _
  · split
    · exact List.cons_ne_nil _ _
    · split <;> exact List.cons_ne_nil _ _

theorem digitValue?_byte : ∀ n < 256, 0x80 ≤ n → digitValue? 16 (Char.ofNat n) = none := by
  decide +kernel

/-- The bytes of what is no digit do not start with one. -/
theorem exists_encodeChar_eq (h : digitValue? 16 c = none) :
    ∃ b bs, encodeChar c = b :: bs ∧ digitValue? 16 (Char.ofNat b.toNat) = none := by
  by_cases hc : c.toNat < 0x80
  · refine ⟨_, [], encodeChar_ascii hc, ?_⟩
    rw [toNat_toUInt8 (by omega), Char.ofNat_toNat]
    exact h
  · obtain ⟨b, bs, hbs⟩ := List.exists_cons_of_ne_nil (encodeChar_ne_nil c)
    refine ⟨b, bs, hbs, digitValue?_byte _ b.toNat_lt ?_⟩
    apply le_of_mem_encodeChar (c := c) (by omega)
    rw [hbs]
    exact List.mem_cons_self

theorem ne_mark_of_mem_encodeChar (h : c ≠ '%') (hb : b ∈ encodeChar c) : b ≠ 0x25 := by
  rintro rfl
  by_cases hc : c.toNat < 0x80
  · rw [encodeChar_ascii hc, List.mem_singleton] at hb
    have hcode := congrArg UInt8.toNat hb
    rw [toNat_toUInt8 (by omega)] at hcode
    exact h (Char.toNat_inj.1 hcode.symm)
  · have hle : 0x80 ≤ (0x25 : UInt8).toNat := le_of_mem_encodeChar (by omega) hb
    exact absurd hle (by decide)

theorem percentDecode_append (h : ∀ b ∈ as, b ≠ 0x25) :
    percentDecode (as ++ bs) = as ++ percentDecode bs := by
  induction as with
  | nil => rfl
  | cons a as ih =>
    obtain ⟨ha, has⟩ := List.forall_mem_cons.1 h
    rw [List.cons_append, percentDecode_cons ha, ih has, List.cons_append]

/-! Decoding, character by character. -/

/-- The byte that two hexadecimal digits write at the start of some bytes, and what is behind. -/
def hexPair? : List UInt8 → Option (UInt8 × List UInt8)
  | b :: c :: r =>
    (digits? 16 [Char.ofNat b.toNat, Char.ofNat c.toNat]).map fun n => (n.toUInt8, r)
  | _ => none

theorem percentDecode_mark (bs : List UInt8) : percentDecode (0x25 :: bs) =
    match hexPair? bs with
    | some (b, r) => b :: percentDecode r
    | none => 0x25 :: percentDecode bs := by
  match bs with
  | [] => rfl
  | [_] => rfl
  | b :: c :: r =>
    rw [percentDecode, if_pos rfl, hexPair?]
    cases digits? 16 [Char.ofNat b.toNat, Char.ofNat c.toNat] <;> rfl

theorem digits?_pair (c d : Char) : digits? 16 [c, d] =
    (digitValue? 16 c).bind fun m => (digitValue? 16 d).map fun n => m * 16 + n := by
  cases hc : digitValue? 16 c <;> simp [digits?, hc]

/-- The byte that two hexadecimal digits write at the start of a text, and what is behind. -/
def charPair? : List Char → Option (UInt8 × List Char)
  | c :: d :: r => (digits? 16 [c, d]).map fun n => (n.toUInt8, r)
  | _ => none

theorem length_of_charPair? (h : charPair? cs = some (b, ds)) : ds.length < cs.length := by
  match cs with
  | c :: d :: r =>
    obtain ⟨n, -, hn⟩ := Option.map_eq_some_iff.1 h
    obtain rfl : r = ds := (Prod.mk.inj hn).2
    simp only [List.length_cons]
    omega

theorem percentEncode_none (cs : List Char) : percentEncode (fun _ => false) cs = cs := by
  simp [percentEncode]

theorem percentEncode_cons (set : Char → Bool) (c : Char) (cs : List Char) :
    percentEncode set (c :: cs) =
      (if set c then (encodeChar c).flatMap escapeByte else [c]) ++ percentEncode set cs :=
  List.flatMap_cons

theorem encode_percentEncode_of_unset (h : set c = false) :
    encode (percentEncode set (c :: cs)) = encodeChar c ++ encode (percentEncode set cs) := by
  rw [percentEncode_cons, h, if_neg Bool.false_ne_true, List.singleton_append, encode_cons]

/-- Neither encoded nor as it is does a character other than a digit start with one. -/
theorem exists_encode_eq (set : Char → Bool) (cs : List Char) (h : digitValue? 16 c = none) :
    ∃ b bs, encode (percentEncode set (c :: cs)) = b :: bs ∧
      digitValue? 16 (Char.ofNat b.toNat) = none := by
  obtain ⟨b, bs, hbs, hb⟩ := exists_encodeChar_eq h
  cases hc : set c with
  | false =>
    refine ⟨b, bs ++ encode (percentEncode set cs), ?_, hb⟩
    rw [encode_percentEncode_of_unset hc, hbs, List.cons_append]
  | true =>
    have hmark : encodeChar '%' = [0x25] := by decide
    rw [percentEncode_cons, hc, if_pos rfl, hbs, List.flatMap_cons, escapeByte, encode_append,
      List.cons_append, encode_cons, hmark]
    exact ⟨0x25, _, rfl, by decide⟩

section

variable (hset : ∀ c, set c = true → c ≠ '%' ∧ digitValue? 16 c = none)
include hset

theorem encode_of_digit (cs : List Char) (h : digitValue? 16 c ≠ none) :
    encode (percentEncode set (c :: cs)) = c.toNat.toUInt8 :: encode (percentEncode set cs) ∧
      c.toNat.toUInt8.toNat = c.toNat := by
  have hc : c.toNat < 0x80 := by
    by_contra hle
    exact h (digitValue?_of_le (by omega))
  have hunset : set c = false := by
    rw [← Bool.not_eq_true]
    exact fun htrue => h (hset c htrue).2
  rw [encode_percentEncode_of_unset hunset, encodeChar_ascii hc]
  exact ⟨rfl, toNat_toUInt8 (by omega)⟩

/-- Encoding leaves two digits where they are, and brings none. -/
theorem hexPair?_encode (cs : List Char) : hexPair? (encode (percentEncode set cs)) =
    (charPair? cs).map fun (b, ds) => (b, encode (percentEncode set ds)) := by
  cases cs with
  | nil => rfl
  | cons c cs =>
    by_cases hc : digitValue? 16 c = none
    · obtain ⟨b, bs, hbs, hb⟩ := exists_encode_eq set cs hc
      have hnone : charPair? (c :: cs) = none := by
        cases cs with
        | nil => rfl
        | cons d cs => rw [charPair?, digits?_pair, hc]; rfl
      rw [hbs, hnone]
      cases bs with
      | nil => rfl
      | cons b' bs => rw [hexPair?, digits?_pair, hb]; rfl
    · obtain ⟨hcs, hcode⟩ := encode_of_digit hset cs hc
      rw [hcs]
      cases cs with
      | nil => rfl
      | cons d cs =>
        by_cases hd : digitValue? 16 d = none
        · obtain ⟨b, bs, hbs, hb⟩ := exists_encode_eq set cs hd
          rw [hbs, hexPair?, charPair?, digits?_pair, digits?_pair, hb, hd]
          simp
        · obtain ⟨hds, hcode'⟩ := encode_of_digit hset cs hd
          rw [hds, hexPair?, charPair?, hcode, hcode', Char.ofNat_toNat, Char.ofNat_toNat,
            Option.map_map]
          rfl

/-- What is encoded is decoded to the same as what is not. -/
theorem percentDecode_percentEncode (cs : List Char) :
    percentDecode (encode (percentEncode set cs)) = percentDecode (encode cs) := by
  induction hn : cs.length using Nat.strongRecOn generalizing cs with
  | ind n ih =>
    subst hn
    cases cs with
    | nil => rfl
    | cons c cs =>
      have hcs := ih cs.length (by simp) cs rfl
      by_cases hc : c = '%'
      · subst hc
        have hunset : set '%' = false := by
          rw [← Bool.not_eq_true]
          exact fun htrue => (hset _ htrue).1 rfl
        have hmark : encodeChar '%' = [0x25] := by decide
        have hraw := @hexPair?_encode (fun _ => false) nofun cs
        simp only [percentEncode_none] at hraw
        rw [encode_percentEncode_of_unset hunset, encode_cons, hmark, List.singleton_append,
          List.singleton_append, percentDecode_mark, percentDecode_mark, hexPair?_encode hset, hraw]
        cases hpair : charPair? cs with
        | none => exact congrArg _ hcs
        | some pair =>
          obtain ⟨b, ds⟩ := pair
          have hless : ds.length < ('%' :: cs).length :=
            Nat.lt_succ_of_lt (length_of_charPair? hpair)
          exact congrArg (b :: ·) (ih ds.length hless ds rfl)
      · have hbytes : ∀ b ∈ encodeChar c, b ≠ 0x25 := fun b => ne_mark_of_mem_encodeChar hc
        rw [encode_cons, percentDecode_append hbytes, ← hcs]
        cases hunset : set c with
        | false => rw [encode_percentEncode_of_unset hunset, percentDecode_append hbytes]
        | true =>
          rw [percentEncode_cons, hunset, if_pos rfl, encode_append, percentDecode_escape]

end

theorem pathSet_low : ∀ n < 0x80, pathSet (Char.ofNat n) = true →
    Char.ofNat n ≠ '%' ∧ digitValue? 16 (Char.ofNat n) = none := by
  decide +kernel

theorem ne_mark_of_pathSet (c : Char) (h : pathSet c = true) :
    c ≠ '%' ∧ digitValue? 16 c = none := by
  by_cases hc : c.toNat < 0x80
  · have hlow := pathSet_low c.toNat hc
    rw [Char.ofNat_toNat] at hlow
    exact hlow h
  · refine ⟨?_, digitValue?_of_le (by omega)⟩
    rintro rfl
    exact hc (by decide)

/-! Lengths. -/

theorem length_percentDecode_le (bs : List UInt8) : (percentDecode bs).length ≤ bs.length := by
  fun_induction percentDecode bs with
  | case1 => simp only [List.length_cons]; omega
  | case2 => simp only [List.length_cons] at *; omega
  | case3 => simp only [List.length_cons] at *; omega
  | case4 => exact Nat.le_refl _

/-- A part of a text, if it is not shorter in bytes, is the whole. -/
theorem eq_of_length_encode_le (h : ds.Sublist cs) (hle : (encode cs).length ≤ (encode ds).length) :
    ds = cs :=
  encode_inj.1 ((h.flatMap encodeChar).eq_of_length_le hle)

/-- A part of a text that is decoded to the text is all of it. -/
theorem eq_of_percentDecode (h : ds.Sublist cs)
    (hread : percentDecode (encode (percentEncode pathSet ds)) = encode cs) : ds = cs := by
  rw [percentDecode_percentEncode ne_mark_of_pathSet] at hread
  refine eq_of_length_encode_le h ?_
  rw [← hread]
  exact length_percentDecode_le _

/-- Dots are decoded to dots. -/
theorem percentDecode_dots (h : dots cs ≠ 0) : percentDecode (encode cs) = encode ['.'] ∨
    percentDecode (encode cs) = encode ['.', '.'] := by
  unfold dots at h
  split at h
  · exact absurd rfl h
  · exact .inl (by decide)
  · exact .inr (by decide)
  · split at h
    · next hdots =>
      simp only [Bool.and_eq_true, Bool.or_eq_true, beq_iff_eq] at hdots
      obtain ⟨⟨rfl, rfl⟩, rfl | rfl⟩ := hdots <;> exact .inl (by decide)
    · exact absurd rfl h
  · split at h
    · next hdots =>
      simp only [Bool.and_eq_true, Bool.or_eq_true, beq_iff_eq] at hdots
      obtain ⟨⟨⟨rfl, rfl⟩, rfl⟩, rfl | rfl⟩ := hdots <;> exact .inr (by decide)
    · split at h
      · next hdots =>
        simp only [Bool.and_eq_true, Bool.or_eq_true, beq_iff_eq] at hdots
        obtain ⟨⟨⟨rfl, rfl⟩, rfl | rfl⟩, rfl⟩ := hdots <;> exact .inr (by decide)
      · exact absurd rfl h
  · split at h
    · next hdots =>
      simp only [Bool.and_eq_true, Bool.or_eq_true, beq_iff_eq] at hdots
      obtain ⟨⟨⟨⟨⟨rfl, rfl⟩, rfl | rfl⟩, rfl⟩, rfl⟩, rfl | rfl⟩ := hdots <;>
        exact .inr (by decide)
    · exact absurd rfl h
  · exact absurd rfl h

end RecipeFlow.Url
