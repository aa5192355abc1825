import FlowEngine.Decimal.Layout
/-!
# `FlowEngine.Condition.Token` — the words of the condition language

Conditions are written in names, texts in single or double quotes, numbers, the four words `true`,
`false`, `null` and `undefined`, six comparisons with several spellings, `&&`, `||`, `!` and
parentheses.  This file holds the tokens, the way a token is named in a message, and the six ways in
which a condition can be unreadable.
-/

namespace FlowEngine.Condition

/-- How two values are compared. -/
inductive Comparison where
  | eq
  | ne
  | gt
  | lt
  | ge
  | le
deriving DecidableEq, Repr

/-- A word of the condition language. -/
inductive Token where
  | name (text : String)
  | text (s : String)
  | number (x : Float)
  | bool (b : Bool)
  | null
  | comparison (op : Comparison)
  | and
  | or
  | not
  | opening
  | closing

/-- Why a condition cannot be read. -/
inductive Error where
  | empty
  | unexpectedChar (c : Char)
  | unterminatedText
  | invalidNumber (text : String)
  | unexpectedToken (text : String)
  | unexpectedEnd
deriving DecidableEq, Repr

def Comparison.label : Comparison → String
  | eq => "Eq"
  | ne => "Ne"
  | gt => "Gt"
  | lt => "Lt"
  | ge => "Ge"
  | le => "Le"

def Token.label : Token → String
  | name t => t
  | text s => "\"" ++ s ++ "\""
  | number x => Decimal.Layout.plain.text x
  | bool b => if b then "true" else "false"
  | null => "null"
  | comparison op => op.label
  | and => "&&"
  | or => "||"
  | not => "!"
  | opening => "("
  | closing => ")"

def Error.message : Error → String
  | empty => "condition is empty"
  | unexpectedChar c => "unexpected character '" ++ String.ofList [c] ++ "'"
  | unterminatedText => "unterminated string literal"
  | invalidNumber t => "invalid number: " ++ t
  | unexpectedToken t => "unexpected token: " ++ t
  | unexpectedEnd => "unexpected end of expression"

end FlowEngine.Condition
