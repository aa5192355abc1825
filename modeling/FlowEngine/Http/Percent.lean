import FlowEngine.Text.Bytes
import FlowEngine.Text.Numeral
import FlowEngine.Text.Split
/-!
# `FlowEngine.Http.Percent` — percent signs in paths and queries

A percent sign and two hexadecimal digits stand for a byte.  Decoding may spare some bytes, which then
stay as they are written; a percent sign without two digits behind it stands for itself.  In a query
a plus sign stands for a blank, and names and values are joined by `=` and pairs by `&`.
-/

namespace FlowEngine.Http

/-- The bytes of a text with their escapes decoded, but for those that stand for a spared byte. -/
def percentDecode (spared : UInt8 → Bool) : List Char → List UInt8
  | [] => []
  | '%' :: a :: b :: rest =>
    match Text.hexValue? a, Text.hexValue? b with
    | some high, some low =>
      let byte := (16 * high + low).toUInt8
      if spared byte then Text.toBytes ['%', a, b] ++ percentDecode spared rest
      else byte :: percentDecode spared rest
    | _, _ => Text.toBytes ['%'] ++ percentDecode spared (a :: b :: rest)
  | c :: rest => Text.toBytes [c] ++ percentDecode spared rest

def decoded (spared : UInt8 → Bool) (s : String) : String :=
  String.ofList (Text.ofBytes (percentDecode spared s.toList))

def capitalHexDigit (n : Nat) : Char := (Text.hexDigit n).toUpper

def escapeByte (b : UInt8) : List Char :=
  ['%', capitalHexDigit (b.toNat / 16), capitalHexDigit (b.toNat % 16)]

/-- A text with the characters of a class escaped. -/
def percentEncode (escaped : Char → Bool) (s : String) : String :=
  String.ofList (s.toList.flatMap fun c =>
    if escaped c then (String.utf8EncodeChar c).flatMap escapeByte else [c])

/-! ## Queries -/

def formText (s : String) : String :=
  decoded (fun _ => false) (String.ofList (s.toList.map fun c => if c = '+' then ' ' else c))

def queryPairs (query : String) : List (String × String) :=
  ((Text.splitAt '&' query).filter (!·.isEmpty)).map fun piece =>
    match Text.cutFirst? '=' piece with
    | some (name, value) => (formText name, formText value)
    | none => (formText piece, "")

end FlowEngine.Http
