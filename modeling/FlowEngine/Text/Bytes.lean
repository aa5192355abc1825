/-!
# `FlowEngine.Text.Bytes` — text as UTF-8, and bytes read leniently

Every text has its UTF-8 form.  In the other direction any bytes can be read: where they are not
UTF-8, the longest beginning of a character is replaced by U+FFFD, and reading goes on behind it.
-/

namespace FlowEngine.Text

/-- The UTF-8 form of characters. -/
def toBytes (cs : List Char) : List UInt8 := cs.flatMap String.utf8EncodeChar

/-- The character that stands for bytes that are none. -/
def replacement : Char := Char.ofNat 0xfffd

/-- How many bytes follow the first byte of a character, and the bounds of the second one. -/
def shape? (b : UInt8) : Option (Nat × UInt8 × UInt8) :=
  if 0xc2 ≤ b && b ≤ 0xdf then some (1, 0x80, 0xbf)
  else if b = 0xe0 then some (2, 0xa0, 0xbf)
  else if b = 0xed then some (2, 0x80, 0x9f)
  else if 0xe1 ≤ b && b ≤ 0xef then some (2, 0x80, 0xbf)
  else if b = 0xf0 then some (3, 0x90, 0xbf)
  else if 0xf1 ≤ b && b ≤ 0xf3 then some (3, 0x80, 0xbf)
  else if b = 0xf4 then some (3, 0x80, 0x8f)
  else none

/-- The bits that the first byte of a character of several bytes contributes. -/
def leadBits (b : UInt8) (following : Nat) : Nat := b.toNat % Nat.pow 2 (6 - following)

/-- The characters of bytes.  `pending` is a character under way: its bits so far, how many bytes are
still missing, and the bounds of the next one. -/
def ofBytesFrom : Option (Nat × Nat × UInt8 × UInt8) → List UInt8 → List Char
  | none, [] => []
  | some _, [] => [replacement]
  | none, b :: bs =>
    if b < 0x80 then Char.ofNat b.toNat :: ofBytesFrom none bs
    else
      match shape? b with
      | none => replacement :: ofBytesFrom none bs
      | some (following, low, high) =>
        ofBytesFrom (some (leadBits b following, following, low, high)) bs
  | some (bits, missing, low, high), b :: bs =>
    if low ≤ b && b ≤ high then
      let bits := 64 * bits + b.toNat % 64
      if missing ≤ 1 then Char.ofNat bits :: ofBytesFrom none bs
      else ofBytesFrom (some (bits, missing - 1, 0x80, 0xbf)) bs
    else if b < 0x80 then replacement :: Char.ofNat b.toNat :: ofBytesFrom none bs
    else
      match shape? b with
      | none => replacement :: replacement :: ofBytesFrom none bs
      | some (following, low, high) =>
        replacement :: ofBytesFrom (some (leadBits b following, following, low, high)) bs

/-- The characters of bytes, read leniently. -/
def ofBytes (bs : List UInt8) : List Char := ofBytesFrom none bs

end FlowEngine.Text
