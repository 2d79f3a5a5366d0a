/-! Texts as bytes: the UTF-8 encoding. -/
namespace RecipeFlow.Text

/-- The bytes of a character. -/
def encodeChar (c : Char) : List UInt8 :=
  let n := c.toNat
  if n < 0x80 then [n.toUInt8]
  else if n < 0x800 then [(0xC0 + n / 0x40).toUInt8, (0x80 + n % 0x40).toUInt8]
  else if n < 0x10000 then
    [(0xE0 + n / 0x1000).toUInt8, (0x80 + n / 0x40 % 0x40).toUInt8, (0x80 + n % 0x40).toUInt8]
  else
    [(0xF0 + n / 0x40000).toUInt8, (0x80 + n / 0x1000 % 0x40).toUInt8,
      (0x80 + n / 0x40 % 0x40).toUInt8, (0x80 + n % 0x40).toUInt8]

/-- The bytes of a text. -/
def encode (cs : List Char) : List UInt8 :=
  cs.flatMap encodeChar

/-- The six bits of a continuation byte. -/
def continuation? (b : UInt8) : Option Nat :=
  if 0x80 ≤ b && b < 0xC0 then some (b.toNat - 0x80) else none

/-- The character of a code point in a range that needs so many bytes. -/
def charIn? (low n : Nat) : Option Char :=
  if low ≤ n && n < 0x110000 && !(0xD800 ≤ n && n < 0xE000) then some (Char.ofNat n) else none

/-- The text that bytes encode, if they do; each character in its shortest form. -/
def decode? : List UInt8 → Option (List Char)
  | [] => some []
  | a :: r =>
    if a < 0x80 then (decode? r).map (Char.ofNat a.toNat :: ·)
    else match r with
      | [] => none
      | b :: r =>
        if a < 0xC0 then none
        else if a < 0xE0 then do
          let n ← continuation? b
          let c ← charIn? 0x80 ((a.toNat - 0xC0) * 0x40 + n)
          (decode? r).map (c :: ·)
        else match r with
          | [] => none
          | b' :: r =>
            if a < 0xF0 then do
              let n ← continuation? b
              let m ← continuation? b'
              let c ← charIn? 0x800 ((a.toNat - 0xE0) * 0x1000 + n * 0x40 + m)
              (decode? r).map (c :: ·)
            else match r with
              | [] => none
              | b'' :: r =>
                if a < 0xF8 then do
                  let n ← continuation? b
                  let m ← continuation? b'
                  let k ← continuation? b''
                  let c ← charIn? 0x10000
                    ((a.toNat - 0xF0) * 0x40000 + n * 0x1000 + m * 0x40 + k)
                  (decode? r).map (c :: ·)
                else none

end RecipeFlow.Text
