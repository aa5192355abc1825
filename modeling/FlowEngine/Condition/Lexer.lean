import FlowEngine.Condition.Token
import FlowEngine.Decimal.Reading
import FlowEngine.Text.Letter
/-!
# `FlowEngine.Condition.Lexer` — from characters to tokens

Each step takes the longest word at the front of the text.  Blank, tab, carriage return and line
feed separate words and mean nothing.  One, two or three equals signs are all equality; a minus sign
belongs to a number when a digit follows it; a text goes to the next quote of its own kind and has no
escapes.
-/

namespace FlowEngine.Condition

def isSeparator (c : Char) : Bool := c == ' ' || c == '\t' || c == '\r' || c == '\n'

def isNameStart (c : Char) : Bool := Text.isLetter c || c == '_' || c == '$'

/-- A character that may go on a name; the point joins the segments of a path. -/
def isNamePart (c : Char) : Bool :=
  Text.isLetterOrNumeral c || c == '_' || c == '$' || c == '.'

def isNumberPart (c : Char) : Bool := c.isDigit || c == '.'

def countEquals (cs : List Char) : Nat := (cs.takeWhile (· == '=')).length

/-- A name, unless it is one of the words that stand for a value. -/
def Token.ofName (s : String) : Token :=
  if s = "true" then bool true
  else if s = "false" then bool false
  else if s = "null" || s = "undefined" then null
  else name s

/-- A number whose first character is already taken. -/
def lexNumber (first : Char) (cs : List Char) : Except Error (Option Token × List Char) :=
  let spelling := String.ofList (first :: cs.takeWhile isNumberPart)
  match Decimal.float? spelling with
  | some x => .ok (some (.number x), cs.dropWhile isNumberPart)
  | none => .error (.invalidNumber spelling)

/-- A text up to its closing quote. -/
def lexText (quote : Char) (cs : List Char) : Except Error (Option Token × List Char) :=
  match cs.dropWhile (· != quote) with
  | [] => .error .unterminatedText
  | _ :: rest => .ok (some (.text (String.ofList (cs.takeWhile (· != quote)))), rest)

/-- The word that begins with a character, if it is not a separator, and what follows it. -/
def lexWord (c : Char) (cs : List Char) : Except Error (Option Token × List Char) :=
  if isSeparator c then .ok (none, cs)
  else if c = '(' then .ok (some .opening, cs)
  else if c = ')' then .ok (some .closing, cs)
  else if c = '=' then
    .ok (some (.comparison .eq), cs.drop (min (countEquals (c :: cs)) 3 - 1))
  else if c = '!' then
    if cs.head? = some '=' then .ok (some (.comparison .ne), cs.drop (min (countEquals cs) 2))
    else .ok (some .not, cs)
  else if c = '>' then
    if cs.head? = some '=' then .ok (some (.comparison .ge), cs.drop 1)
    else .ok (some (.comparison .gt), cs)
  else if c = '<' then
    if cs.head? = some '=' then .ok (some (.comparison .le), cs.drop 1)
    else .ok (some (.comparison .lt), cs)
  else if c = '&' && cs.head? = some '&' then .ok (some .and, cs.drop 1)
  else if c = '|' && cs.head? = some '|' then .ok (some .or, cs.drop 1)
  else if c = '"' || c = '\'' then lexText c cs
  else if c.isDigit || (c = '-' && (cs.head?.map Char.isDigit).getD false) then lexNumber c cs
  else if isNameStart c then
    .ok (some (.ofName (String.ofList (c :: cs.takeWhile isNamePart))), cs.dropWhile isNamePart)
  else .error (.unexpectedChar c)

/-- The words of a text, behind those already taken in reverse; every step takes a character, so the
length of the text is fuel enough. -/
def lexFrom : Nat → List Token → List Char → Except Error (List Token)
  | _, taken, [] => .ok taken.reverse
  | 0, taken, _ :: _ => .ok taken.reverse
  | fuel + 1, taken, c :: cs =>
    match lexWord c cs with
    | .error e => .error e
    | .ok (none, rest) => lexFrom fuel taken rest
    | .ok (some token, rest) => lexFrom fuel (token :: taken) rest

def tokenize (source : String) : Except Error (List Token) :=
  let cs := source.toList
  lexFrom cs.length [] cs

end FlowEngine.Condition
