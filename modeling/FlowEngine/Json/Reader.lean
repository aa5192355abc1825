import FlowEngine.Json.Document
/-!
# `FlowEngine.Json.Reader` — reading data from text

The grammar is strict: no comments, no trailing commas, no blanks but the four of the grammar, and
nothing after the value but blanks.  Arrays and objects may nest 127 deep; what stands deeper is
checked for its grammar but has no value.  `Document.parse?` keeps what is written, `Json.parse?` is
the value of it.
-/

namespace FlowEngine

namespace Document

/-- The blanks that may stand between the parts of a document. -/
def isGap (c : Char) : Bool := c == ' ' || c == '\t' || c == '\n' || c == '\r'

def skipGaps (cs : List Char) : List Char := cs.dropWhile isGap

/-! ## Numbers -/

/-- The largest significand that is kept digit by digit. -/
def maxSignificand : Nat := 18446744073709551615

/-- Append digits to a significand while it stays within 64 bits; the digits that did not fit are
given back. -/
def extend (significand : Nat) : List Char → Nat × List Char
  | [] => (significand, [])
  | c :: cs =>
    let next := 10 * significand + Text.digitValue c
    if next ≤ maxSignificand then extend next cs else (significand, c :: cs)

/-- The value of a number without fraction and exponent. -/
def wholeNumber (negative : Bool) (digits : List Char) : Option Number :=
  let (significand, dropped) := extend 0 digits
  if !dropped.isEmpty then
    (Decimal.scaled? negative significand dropped.length).map Number.float
  else if !negative then some (.integer significand)
  else if 0 < significand && significand ≤ 9223372036854775808 then some (.integer (-(significand : Int)))
  else (Decimal.scaled? true significand 0).map Number.float

/-- The value of a number with a fraction or an exponent. -/
def fractionalNumber (negative : Bool) (whole fraction : List Char) (negativePower : Bool)
    (power : Nat) : Option Number :=
  let (high, unread) := extend 0 whole
  let (significand, dropped) := extend high fraction
  let shift := (unread.length : Int) - ((fraction.length - dropped.length : Nat) : Int)
  if power < 2147483648 then
    let exponent := shift + (if negativePower then -(power : Int) else power)
    (Decimal.scaled? negative significand exponent).map Number.float
  else if significand = 0 || negativePower then
    some (.float (if negative then -0.0 else 0.0))
  else none

def digits (cs : List Char) : List Char × List Char :=
  (cs.takeWhile Char.isDigit, cs.dropWhile Char.isDigit)

/-- The part of a number behind the letter `e`: sign, digits, rest. -/
def readPower? (cs : List Char) : Option (Bool × List Char × List Char) :=
  let (negative, cs) : Bool × List Char := match cs with
    | '+' :: rest => (false, rest)
    | '-' :: rest => (true, rest)
    | rest => (false, rest)
  let (power, rest) := digits cs
  if power.isEmpty then none else some (negative, power, rest)

def readNumber? (negative : Bool) (cs : List Char) : Option (Document × List Char) :=
  let (whole, rest) := digits cs
  if whole.isEmpty || (1 < whole.length && whole.head? == some '0') then none
  else
    let fraction : Option (List Char × List Char) := match rest with
      | '.' :: more =>
        let (ds, rest) := digits more
        if ds.isEmpty then none else some (ds, rest)
      | other => some ([], other)
    match fraction with
    | none => none
    | some (fraction, rest) =>
      let value (n : Option Number) : Document := literal (n.map Json.number)
      match rest with
      | c :: more =>
        if c = 'e' || c = 'E' then
          match readPower? more with
          | none => none
          | some (negativePower, power, rest) =>
            let n := fractionalNumber negative whole fraction negativePower
              (Text.digitsValue power)
            some (value n, rest)
        else if fraction.isEmpty then some (value (wholeNumber negative whole), rest)
        else some (value (fractionalNumber negative whole fraction false 0), rest)
      | [] =>
        if fraction.isEmpty then some (value (wholeNumber negative whole), rest)
        else some (value (fractionalNumber negative whole fraction false 0), rest)

/-! ## Texts -/

/-- A piece of a quoted text: a character, or an escaped UTF-16 unit. -/
inductive Piece where
  | char (c : Char)
  | unit (n : Nat)

/-- The character that a letter stands for behind a backslash. -/
def unescape? (c : Char) : Option Char :=
  match c with
  | '"' => some '"'
  | '\\' => some '\\'
  | '/' => some '/'
  | 'b' => some (Char.ofNat 8)
  | 'f' => some (Char.ofNat 12)
  | 'n' => some '\n'
  | 'r' => some '\r'
  | 't' => some '\t'
  | _ => none

def fourHex? (a b c d : Char) : Option Nat := do
  let a ← Text.hexValue? a
  let b ← Text.hexValue? b
  let c ← Text.hexValue? c
  let d ← Text.hexValue? d
  some (4096 * a + 256 * b + 16 * c + d)

/-- The pieces up to the closing quote, put in front of those already read in reverse, and what
follows the quote. -/
def readPieces? (read : List Piece) : List Char → Option (List Piece × List Char)
  | [] => none
  | '"' :: rest => some (read.reverse, rest)
  | '\\' :: 'u' :: a :: b :: c :: d :: rest =>
    match fourHex? a b c d with
    | some n => readPieces? (.unit n :: read) rest
    | none => none
  | '\\' :: e :: rest =>
    match unescape? e with
    | some c => readPieces? (.char c :: read) rest
    | none => none
  | c :: rest => if c.toNat < 32 then none else readPieces? (.char c :: read) rest

/-- The characters of the pieces, put in front of those already joined in reverse; a surrogate that
is not one of a pair has none. -/
def joinPieces? (joined : List Char) : List Piece → Option (List Char)
  | [] => some joined.reverse
  | .char c :: rest => joinPieces? (c :: joined) rest
  | .unit n :: rest =>
    if 0xdc00 ≤ n && n < 0xe000 then none
    else if 0xd800 ≤ n && n < 0xdc00 then
      match rest with
      | .unit m :: rest =>
        if 0xdc00 ≤ m && m < 0xe000 then
          joinPieces? (Char.ofNat (0x10000 + (n - 0xd800) * 0x400 + (m - 0xdc00)) :: joined) rest
        else none
      | _ => none
    else joinPieces? (Char.ofNat n :: joined) rest

def readText? (cs : List Char) : Option (Option String × List Char) :=
  match readPieces? [] cs with
  | some (pieces, rest) => some ((joinPieces? [] pieces).map String.ofList, rest)
  | none => none

/-! ## Values -/

def readWord? (word : String) (value : Json) (cs : List Char) : Option (Document × List Char) :=
  (Text.after? word.toList cs).map fun rest => (literal (some value), rest)

/-- An array or object, unless there is no room for it. -/
def within (room : Nat) (d : Document) : Document :=
  if room = 0 then literal none else d

mutual

/-- A value at the front of the text, and what follows it; `room` is how many more levels have a
value. -/
def readValue? : Nat → Nat → List Char → Option (Document × List Char)
  | 0, _, _ => none
  | fuel + 1, room, cs =>
    match skipGaps cs with
    | [] => none
    | c :: rest =>
      if c = '"' then
        (readText? rest).map fun (s, rest) => (literal (s.map Json.string), rest)
      else if c = '[' then
        match skipGaps rest with
        | ']' :: rest => some (within room (array []), rest)
        | rest => readItems? fuel room [] rest
      else if c = '{' then
        match skipGaps rest with
        | '}' :: rest => some (within room (object []), rest)
        | rest => readMembers? fuel room [] rest
      else if c = '-' then readNumber? true rest
      else if c.isDigit then readNumber? false (c :: rest)
      else if c = 'n' then readWord? "null" .null (c :: rest)
      else if c = 't' then readWord? "true" (.bool true) (c :: rest)
      else if c = 'f' then readWord? "false" (.bool false) (c :: rest)
      else none

/-- The items up to the closing bracket; those already read are in reverse. -/
def readItems? : Nat → Nat → List Document → List Char → Option (Document × List Char)
  | 0, _, _, _ => none
  | fuel + 1, room, read, cs =>
    match readValue? fuel (room - 1) cs with
    | none => none
    | some (item, rest) =>
      match skipGaps rest with
      | ',' :: rest => readItems? fuel room (item :: read) rest
      | ']' :: rest => some (within room (array (item :: read).reverse), rest)
      | _ => none

/-- The members up to the closing brace; those already read are in reverse. -/
def readMembers? : Nat → Nat → List (Option String × Document) → List Char →
    Option (Document × List Char)
  | 0, _, _, _ => none
  | fuel + 1, room, read, cs =>
    match skipGaps cs with
    | '"' :: rest =>
      match readText? rest with
      | none => none
      | some (name, rest) =>
        match skipGaps rest with
        | ':' :: rest =>
          match readValue? fuel (room - 1) rest with
          | none => none
          | some (value, rest) =>
            match skipGaps rest with
            | ',' :: rest => readMembers? fuel room ((name, value) :: read) rest
            | '}' :: rest => some (within room (object ((name, value) :: read).reverse), rest)
            | _ => none
        | _ => none
    | _ => none

end

/-- How many levels of arrays and objects have a value. -/
def maxDepth : Nat := 127

def parse? (text : String) : Option Document :=
  let cs := text.toList
  match readValue? (2 * cs.length + 2) maxDepth cs with
  | some (d, rest) => if (skipGaps rest).isEmpty then some d else none
  | none => none

end Document

def Json.parse? (text : String) : Option Json :=
  (Document.parse? text).bind Document.value?

end FlowEngine
