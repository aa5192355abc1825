/-!
# `FlowEngine.Text.Numeral` — whole numbers written in digits

Array positions, capacities and calendar fields are written in ASCII digits.  `digitsValue` is the
value of a list of digits, read from the left; the readers below say which spellings each use
admits and how large a number may be.
-/

namespace FlowEngine.Text

/-- The value of an ASCII digit. -/
def digitValue (c : Char) : Nat := c.toNat - '0'.toNat

/-- The value of a list of digits in front of which `acc` has already been read. -/
def digitsValueFrom (acc : Nat) : List Char → Nat
  | [] => acc
  | c :: cs => digitsValueFrom (10 * acc + digitValue c) cs

def digitsValue (cs : List Char) : Nat := digitsValueFrom 0 cs

def natural? (cs : List Char) : Option Nat :=
  if cs.isEmpty || !cs.all Char.isDigit then none else some (digitsValue cs)

/-- The largest position or capacity that can be named. -/
def maxIndex : Nat := 18446744073709551615

/-- A position: ASCII digits, at most one `+` in front, no more than 64 bits. -/
def index? (s : String) : Option Nat :=
  let digits := match s.toList with
    | '+' :: cs => cs
    | cs => cs
  match natural? digits with
  | some n => if n ≤ maxIndex then some n else none
  | none => none

/-- The value of a hexadecimal digit of either case. -/
def hexValue? (c : Char) : Option Nat :=
  if c.isDigit then some (c.toNat - '0'.toNat)
  else if 'a' ≤ c && c ≤ 'f' then some (c.toNat - 'a'.toNat + 10)
  else if 'A' ≤ c && c ≤ 'F' then some (c.toNat - 'A'.toNat + 10)
  else none

/-- A number below sixteen as a small hexadecimal digit. -/
def hexDigit (n : Nat) : Char :=
  if n < 10 then Char.ofNat ('0'.toNat + n) else Char.ofNat ('a'.toNat + (n - 10))

/-- The last `width` hexadecimal digits of a number. -/
def hex (width n : Nat) : List Char :=
  (List.range width).reverse.map fun i => hexDigit (n / Nat.pow 16 i % 16)

/-- A number in decimal digits, with zeros in front up to the width. -/
def padded (width n : Nat) : String :=
  let digits := (toString n).toList
  String.ofList (List.replicate (width - digits.length) '0' ++ digits)

end FlowEngine.Text
