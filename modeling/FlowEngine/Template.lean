import FlowEngine.Json.Printer
import FlowEngine.Text.Blank
import FlowEngine.Text.Split
/-!
# `FlowEngine.Template` — placeholders filled from the current data

A template is a text with placeholders `{{path}}`.  A path leads into the value
`{ "input": data }`, so its first segment is `input`; a placeholder whose path leads to a value is
replaced by the text of that value, any other stays as it is.  Placeholders are found from the left
and do not overlap, and what has been filled in is not looked at again.
-/

namespace FlowEngine.Template

open FlowEngine (Json)

/-- The first segment of every path. -/
def rootName : String := "input"

def walk? (current : Json) : List String → Option Json
  | [] => some current
  | segment :: rest => (current.child? segment).bind fun next => walk? next rest

/-- The value that a path leads to from `{ "input": data }`. -/
def resolve? (data : Json) (path : String) : Option Json :=
  match Text.splitAt '.' path with
  | first :: rest => if first = rootName then walk? data rest else none
  | [] => none

/-- The value that a path leads to from the value itself. -/
def lookup? (value : Json) (path : String) : Option Json :=
  walk? value (Text.splitAt '.' path)

/-! ## Placeholders -/

/-- The path of the placeholder that begins behind the two opening braces, and what follows the
placeholder. -/
def placeholder? (cs : List Char) : Option (List Char × List Char) :=
  let path := cs.takeWhile (· != '\x7d')
  match cs.dropWhile (· != '\x7d') with
  | '\x7d' :: '\x7d' :: rest => if path.isEmpty then none else some (path, rest)
  | _ => none

/-- What stands in place of a placeholder. -/
def filling (data : Json) (path : List Char) : List Char :=
  match resolve? data (Text.trim (String.ofList path)) with
  | some value => (Json.render value).toList
  | none => '\x7b' :: '\x7b' :: path ++ ['\x7d', '\x7d']

/-- The template with its placeholders filled, behind what is already done, in reverse; every step
takes a character, so the length of the template is fuel enough. -/
def fillFrom (data : Json) : Nat → List Char → List Char → List Char
  | _, done, [] => done.reverse
  | 0, done, cs => done.reverse ++ cs
  | fuel + 1, done, c :: cs =>
    match c, cs with
    | '\x7b', '\x7b' :: rest =>
      match placeholder? rest with
      | some (path, rest) => fillFrom data fuel ((filling data path).reverse ++ done) rest
      | none => fillFrom data fuel (c :: done) cs
    | _, _ => fillFrom data fuel (c :: done) cs

def fill (template : String) (data : Json) : String :=
  let cs := template.toList
  String.ofList (fillFrom data cs.length [] cs)

/-- The members of a node configuration with the placeholders of texts filled; other values, and
texts inside them, stay as they are. -/
def fillConfig (config : Json.Members) (data : Json) : Json.Members :=
  config.map fun (name, value) =>
    match value with
    | .string s => (name, .string (fill s data))
    | other => (name, other)

mutual

/-- The value with the placeholders of every text inside it filled. -/
def fillValue (data : Json) : Json → Json
  | .string s => .string (fill s data)
  | .array items => .array (fillItems data items)
  | .object members => .object (fillMembers data members)
  | .null => .null
  | .bool b => .bool b
  | .number n => .number n

def fillItems (data : Json) : List Json → List Json
  | [] => []
  | x :: xs => fillValue data x :: fillItems data xs

def fillMembers (data : Json) : Json.Members → Json.Members
  | [] => []
  | (name, x) :: xs => (name, fillValue data x) :: fillMembers data xs

end

end FlowEngine.Template
