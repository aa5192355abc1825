/-!
# `FlowEngine.Text.Blank` — white space, trimming and blank-separated fields

White space is the Unicode property `White_Space`: twenty-five characters, among them the
no-break space and the ideographic space, but neither the zero-width space nor the byte order
mark.  Everything the engine trims (configuration values, template paths, filters, schedules) is
trimmed by this one class, so two texts that differ only in surrounding blanks mean the same.
-/

namespace FlowEngine.Text

/-- A character with the property `White_Space`. -/
def isBlank (c : Char) : Bool :=
  let n := c.toNat
  (9 ≤ n && n ≤ 13) || n == 32 || n == 133 || n == 160 || n == 5760 ||
    (8192 ≤ n && n ≤ 8202) || n == 8232 || n == 8233 || n == 8239 || n == 8287 || n == 12288

def dropEndWhile (p : Char → Bool) (cs : List Char) : List Char :=
  (cs.reverse.dropWhile p).reverse

def stripWhile (p : Char → Bool) (cs : List Char) : List Char :=
  dropEndWhile p (cs.dropWhile p)

/-- The text without white space at either end. -/
def trim (s : String) : String :=
  String.ofList (stripWhile isBlank s.toList)

def trimChar (c : Char) (s : String) : String :=
  String.ofList (stripWhile (· == c) s.toList)

def trimCharEnd (c : Char) (s : String) : String :=
  String.ofList (dropEndWhile (· == c) s.toList)

/-- The trimmed text, if anything is left of it. -/
def nonBlank? (s : String) : Option String :=
  let t := trim s
  if t.isEmpty then none else some t

/-- How many maximal runs of non-blank characters there are; `open_` tells whether the text before
was inside such a run. -/
def countFields (open_ : Bool) : List Char → Nat
  | [] => 0
  | c :: cs =>
    if isBlank c then countFields false cs
    else (if open_ then 0 else 1) + countFields true cs

/-- How many fields a text has when it is cut at runs of white space. -/
def fieldCount (s : String) : Nat :=
  countFields false s.toList

end FlowEngine.Text
