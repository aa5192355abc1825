import FlowEngine.Json.Basic
/-!
# `FlowEngine.Json.Printer` — values as text

`compact` writes no blanks at all and is the form that is spliced into templates, messages and sort
keys; `pretty` puts each item on a line of its own, indented by two blanks, and leaves empty arrays
and objects closed up.  In both a text is quoted by the same rule: quote, backslash and the control
characters are escaped, everything else stands for itself.
-/

namespace FlowEngine.Json

/-- A character inside quotes. -/
def escape (c : Char) : List Char :=
  if c = '"' then ['\\', '"']
  else if c = '\\' then ['\\', '\\']
  else if c = '\n' then ['\\', 'n']
  else if c = '\r' then ['\\', 'r']
  else if c = '\t' then ['\\', 't']
  else if c.toNat = 8 then ['\\', 'b']
  else if c.toNat = 12 then ['\\', 'f']
  else if c.toNat < 32 then '\\' :: 'u' :: Text.hex 4 c.toNat
  else [c]

def quoted (s : String) : String :=
  String.ofList ('"' :: s.toList.flatMap escape ++ ['"'])

/-! ## Compact -/

mutual

/-- The value without any blanks. -/
def compact : Json → String
  | .null => "null"
  | .bool true => "true"
  | .bool false => "false"
  | .number n => n.text
  | .string s => quoted s
  | .array items => "[" ++ compactItems items ++ "]"
  | .object members => "\x7b" ++ compactMembers members ++ "\x7d"

def compactItems : List Json → String
  | [] => ""
  | [x] => compact x
  | x :: xs => compact x ++ "," ++ compactItems xs

def compactMembers : Members → String
  | [] => ""
  | [(name, x)] => quoted name ++ ":" ++ compact x
  | (name, x) :: xs => quoted name ++ ":" ++ compact x ++ "," ++ compactMembers xs

end

/-! ## Pretty -/

def indent (depth : Nat) : String := String.ofList (List.replicate (2 * depth) ' ')

mutual

/-- The value spread over lines; `depth` is how deep it stands. -/
def spread (depth : Nat) : Json → String
  | .array [] => "[]"
  | .array (x :: xs) =>
    "[\n" ++ spreadItems depth (x :: xs) ++ "\n" ++ indent depth ++ "]"
  | .object [] => "\x7b\x7d"
  | .object (m :: ms) =>
    "\x7b\n" ++ spreadMembers depth (m :: ms) ++ "\n" ++ indent depth ++ "\x7d"
  | .null => "null"
  | .bool true => "true"
  | .bool false => "false"
  | .number n => n.text
  | .string s => quoted s

def spreadItems (depth : Nat) : List Json → String
  | [] => ""
  | [x] => indent (depth + 1) ++ spread (depth + 1) x
  | x :: xs => indent (depth + 1) ++ spread (depth + 1) x ++ ",\n" ++ spreadItems depth xs

def spreadMembers (depth : Nat) : Members → String
  | [] => ""
  | [(name, x)] => indent (depth + 1) ++ quoted name ++ ": " ++ spread (depth + 1) x
  | (name, x) :: xs =>
    indent (depth + 1) ++ quoted name ++ ": " ++ spread (depth + 1) x ++ ",\n" ++
      spreadMembers depth xs

end

def pretty (value : Json) : String := spread 0 value

/-- The text of a value spliced into other text: a text stands for itself, anything else is
compact. -/
def render : Json → String
  | .string s => s
  | other => compact other

end FlowEngine.Json
