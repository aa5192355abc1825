/-!
# `FlowEngine.Text.Split` — cutting a text at a separator

Paths, sort keys, node types and field lists are texts cut at a single character.  A cut keeps empty
pieces: the pieces joined again by the separator are the text, and there is always at least one.
-/

namespace FlowEngine.Text

/-- The pieces between the separators; `[]` is one empty piece. -/
def pieces (sep : Char) : List Char → List (List Char)
  | [] => [[]]
  | c :: cs =>
    if c = sep then [] :: pieces sep cs
    else match pieces sep cs with
      | [] => [[c]]
      | p :: ps => (c :: p) :: ps

def splitAt (sep : Char) (s : String) : List String :=
  (pieces sep s.toList).map String.ofList

/-- The text before the first separator and the text after it. -/
def cutFirst? (sep : Char) (s : String) : Option (String × String) :=
  let cs := s.toList
  match cs.dropWhile (· != sep) with
  | [] => none
  | _ :: rest => some (String.ofList (cs.takeWhile (· != sep)), String.ofList rest)

/-- The text before the last separator and the text after it. -/
def cutLast? (sep : Char) (s : String) : Option (String × String) :=
  let cs := s.toList.reverse
  match cs.dropWhile (· != sep) with
  | [] => none
  | _ :: rest =>
    some (String.ofList rest.reverse, String.ofList (cs.takeWhile (· != sep)).reverse)

/-- What follows a given beginning. -/
def after? : List Char → List Char → Option (List Char)
  | [], cs => some cs
  | _ :: _, [] => none
  | p :: ps, c :: cs => if p = c then after? ps cs else none

def startsWith (start s : String) : Bool :=
  (after? start.toList s.toList).isSome

/-- What follows `start` in a text that begins with it. -/
def dropStart? (start s : String) : Option String :=
  (after? start.toList s.toList).map String.ofList

/-- A line without the carriage return at its end. -/
def dropCarriageReturn (s : String) : String :=
  match s.toList.reverse with
  | '\r' :: rest => String.ofList rest.reverse
  | _ => s

/-- ASCII capitals made small; other characters stay. -/
def lower (s : String) : String :=
  String.ofList (s.toList.map Char.toLower)

end FlowEngine.Text
