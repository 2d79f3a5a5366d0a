import RecipeFlow.Text.Utf8

/-! Bytes of texts: what they encode is read back. -/
namespace RecipeFlow.Text

variable {c : Char} {cs ds : List Char} {bs : List UInt8} {low n : Nat}

theorem encode_append : encode (cs ++ ds) = encode cs ++ encode ds :=
  List.flatMap_append

theorem encode_cons : encode (c :: cs) = encodeChar c ++ encode cs :=
  List.flatMap_cons

/-- A character of ASCII is its own byte. -/
theorem encodeChar_ascii (h : c.toNat < 0x80) : encodeChar c = [c.toNat.toUInt8] :=
  if_pos h

theorem toNat_toUInt8 (h : n < 256) : n.toUInt8.toNat = n :=
  UInt8.toNat_ofNat_of_lt h

theorem toUInt8_lt {b : UInt8} (k : Nat) (hn : n < 256) (hb : b.toNat = k) (h : n < k) :
    n.toUInt8 < b := by
  rwa [UInt8.lt_iff_toNat_lt, toNat_toUInt8 hn, hb]

theorem not_toUInt8_lt {b : UInt8} (k : Nat) (hn : n < 256) (hb : b.toNat = k) (h : k ≤ n) :
    ¬ n.toUInt8 < b := by
  rwa [UInt8.lt_iff_toNat_lt, toNat_toUInt8 hn, hb, Nat.not_lt]

theorem charIn?_toNat (h : low ≤ c.toNat) : charIn? low c.toNat = some c := by
  have hvalid : c.toNat < 0xD800 ∨ 0xDFFF < c.toNat ∧ c.toNat < 0x110000 := c.valid
  have hrange :
      (low ≤ c.toNat && c.toNat < 0x110000 && !(0xD800 ≤ c.toNat && c.toNat < 0xE000)) = true := by
    simp only [Bool.and_eq_true, decide_eq_true_eq, Bool.not_eq_true', Bool.and_eq_false_iff,
      decide_eq_false_iff_not]
    omega
  rw [charIn?, if_pos hrange, Char.ofNat_toNat]

theorem continuation?_toUInt8 (h : n < 0x40) : continuation? (0x80 + n).toUInt8 = some n := by
  have hn : (0x80 + n).toUInt8.toNat = 0x80 + n := toNat_toUInt8 (by omega)
  have hrange : (0x80 ≤ (0x80 + n).toUInt8 && (0x80 + n).toUInt8 < 0xC0) = true := by
    simp only [Bool.and_eq_true, decide_eq_true_eq, UInt8.le_iff_toNat_le, UInt8.lt_iff_toNat_lt,
      hn]
    constructor
    · show 128 ≤ _
      omega
    · show _ < 192
      omega
  rw [continuation?, if_pos hrange, hn, Nat.add_sub_cancel_left]

/-! Each width of a character apart: its first byte tells how many there are. -/

theorem decode?_one (h : c.toNat < 0x80) :
    decode? (encodeChar c ++ bs) = (decode? bs).map (c :: ·) := by
  have hbyte : c.toNat < 256 := by omega
  rw [encodeChar_ascii h, List.singleton_append, decode?.eq_def]
  dsimp only
  rw [if_pos (toUInt8_lt 0x80 hbyte rfl h), toNat_toUInt8 hbyte,
    Char.ofNat_toNat]

theorem decode?_two (h : 0x80 ≤ c.toNat) (h' : c.toNat < 0x800) :
    decode? (encodeChar c ++ bs) = (decode? bs).map (c :: ·) := by
  have hbyte : 0xC0 + c.toNat / 0x40 < 256 := by omega
  have hlast : c.toNat % 0x40 < 0x40 := Nat.mod_lt _ (by decide)
  have hvalue : (0xC0 + c.toNat / 0x40 - 0xC0) * 0x40 + c.toNat % 0x40 = c.toNat := by omega
  simp only [encodeChar]
  rw [if_neg (Nat.not_lt.2 h), if_pos h', List.cons_append, decode?.eq_def]
  dsimp only [List.cons_append]
  rw [if_neg (not_toUInt8_lt 0x80 hbyte rfl (by omega)),
    if_neg (not_toUInt8_lt 0xC0 hbyte rfl (by omega)),
    if_pos (toUInt8_lt 0xE0 hbyte rfl (by omega)),
    continuation?_toUInt8 hlast, toNat_toUInt8 hbyte, Option.bind_eq_bind, Option.bind_some,
    hvalue, charIn?_toNat h]
  rfl

theorem decode?_three (h : 0x800 ≤ c.toNat) (h' : c.toNat < 0x10000) :
    decode? (encodeChar c ++ bs) = (decode? bs).map (c :: ·) := by
  have hbyte : 0xE0 + c.toNat / 0x1000 < 256 := by omega
  have hlast : c.toNat % 0x40 < 0x40 := Nat.mod_lt _ (by decide)
  have hmiddle : c.toNat / 0x40 % 0x40 < 0x40 := Nat.mod_lt _ (by decide)
  have hvalue : (0xE0 + c.toNat / 0x1000 - 0xE0) * 0x1000 + c.toNat / 0x40 % 0x40 * 0x40 +
      c.toNat % 0x40 = c.toNat := by omega
  simp only [encodeChar]
  rw [if_neg (by omega), if_neg (Nat.not_lt.2 h), if_pos h', List.cons_append, decode?.eq_def]
  dsimp only [List.cons_append]
  rw [if_neg (not_toUInt8_lt 0x80 hbyte rfl (by omega)),
    if_neg (not_toUInt8_lt 0xC0 hbyte rfl (by omega)),
    if_neg (not_toUInt8_lt 0xE0 hbyte rfl (by omega)),
    if_pos (toUInt8_lt 0xF0 hbyte rfl (by omega)),
    continuation?_toUInt8 hmiddle, continuation?_toUInt8 hlast, toNat_toUInt8 hbyte,
    Option.bind_eq_bind, Option.bind_some, Option.bind_some, hvalue, charIn?_toNat h]
  rfl

theorem decode?_four (h : 0x10000 ≤ c.toNat) :
    decode? (encodeChar c ++ bs) = (decode? bs).map (c :: ·) := by
  have hbound : c.toNat < 0x110000 := by
    have hvalid : c.toNat < 0xD800 ∨ 0xDFFF < c.toNat ∧ c.toNat < 0x110000 := c.valid
    omega
  have hbyte : 0xF0 + c.toNat / 0x40000 < 256 := by omega
  have hlast : c.toNat % 0x40 < 0x40 := Nat.mod_lt _ (by decide)
  have hmiddle : c.toNat / 0x40 % 0x40 < 0x40 := Nat.mod_lt _ (by decide)
  have hsecond : c.toNat / 0x1000 % 0x40 < 0x40 := Nat.mod_lt _ (by decide)
  have hvalue : (0xF0 + c.toNat / 0x40000 - 0xF0) * 0x40000 + c.toNat / 0x1000 % 0x40 * 0x1000 +
      c.toNat / 0x40 % 0x40 * 0x40 + c.toNat % 0x40 = c.toNat := by omega
  simp only [encodeChar]
  rw [if_neg (by omega), if_neg (by omega), if_neg (Nat.not_lt.2 h), List.cons_append,
    decode?.eq_def]
  dsimp only [List.cons_append]
  rw [if_neg (not_toUInt8_lt 0x80 hbyte rfl (by omega)),
    if_neg (not_toUInt8_lt 0xC0 hbyte rfl (by omega)),
    if_neg (not_toUInt8_lt 0xE0 hbyte rfl (by omega)),
    if_neg (not_toUInt8_lt 0xF0 hbyte rfl (by omega)),
    if_pos (toUInt8_lt 0xF8 hbyte rfl (by omega)),
    continuation?_toUInt8 hsecond, continuation?_toUInt8 hmiddle, continuation?_toUInt8 hlast,
    toNat_toUInt8 hbyte, Option.bind_eq_bind, Option.bind_some, Option.bind_some,
    Option.bind_some, hvalue, charIn?_toNat h]
  rfl

/-- Each character is read back from its bytes. -/
theorem decode?_encodeChar (c : Char) (bs : List UInt8) :
    decode? (encodeChar c ++ bs) = (decode? bs).map (c :: ·) := by
  by_cases h : c.toNat < 0x80
  · exact decode?_one h
  · by_cases h' : c.toNat < 0x800
    · exact decode?_two (by omega) h'
    · by_cases h'' : c.toNat < 0x10000
      · exact decode?_three (by omega) h''
      · exact decode?_four (by omega)

/-- A text is read back from its bytes. -/
theorem decode?_encode (cs : List Char) : decode? (encode cs) = some cs := by
  induction cs with
  | nil => rfl
  | cons c cs ih =>
    rw [encode_cons, decode?_encodeChar, ih]
    rfl

theorem encode_inj : encode cs = encode ds ↔ cs = ds := by
  constructor
  · intro h
    have hread := decode?_encode cs
    rw [h, decode?_encode] at hread
    exact (Option.some.inj hread).symm
  · rintro rfl
    rfl

end RecipeFlow.Text
