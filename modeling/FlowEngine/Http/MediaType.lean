import FlowEngine.Text.Split
/-!
# `FlowEngine.Http.MediaType` — the declared type of a body

A media type is a type and a subtype with a slash between them, then parameters.  A subtype may end in
a suffix, which names the format that the subtype is written in.

    media type   token `/` token (`;` parameters)?
    parameters   blanks, or blanks token `=` value (`;` parameters)?
    value        token, or nothing at the very end, or a quoted text with blanks behind it

A quoted text holds one printable character or more; a quote can only be the first of them.  Nothing
may stand in front of the type, or between it and the semicolon.
-/

namespace FlowEngine.Http

/-- A media type without its parameters, in small letters. -/
structure MediaType where
  kind : String
  /-- The subtype up to its suffix. -/
  subtype : String
  /-- What follows the last plus sign of the subtype, the first character not counted. -/
  suffix : Option String := none
deriving DecidableEq, Repr

namespace MediaType

def isToken (c : Char) : Bool := c.isAlphanum || "!#$%&'*+-.^_`|~".toList.contains c

def isQuotable (c : Char) : Bool := 32 ≤ c.toNat && c.toNat < 127

/-- How far the parameters have been read. -/
inductive Progress where
  /-- In front of a parameter. -/
  | between
  | name
  /-- Behind the equals sign. -/
  | equals
  | value
  /-- Behind the quote that opens a value. -/
  | opened
  | quoted
  /-- Behind the quote that closes a value. -/
  | closed
deriving DecidableEq, Repr

def Progress.step (progress : Progress) (c : Char) : Option Progress :=
  match progress with
  | .between => if c = ' ' then some .between else if isToken c then some .name else none
  | .name => if isToken c then some .name else if c = '=' then some .equals else none
  | .equals => if c = '"' then some .opened else if isToken c then some .value else none
  | .value => if isToken c then some .value else if c = ';' then some .between else none
  | .opened => if isQuotable c then some .quoted else none
  | .quoted => if c = '"' then some .closed else if isQuotable c then some .quoted else none
  | .closed => if c = ' ' then some .closed else if c = ';' then some .between else none

def Progress.isComplete : Progress → Bool
  | .between | .equals | .value | .closed => true
  | .name | .opened | .quoted => false

def areParameters (cs : List Char) : Bool :=
  match cs.foldlM Progress.step .between with
  | some progress => progress.isComplete
  | none => false

/-- A media type of a type and a whole subtype. -/
def ofTokens (kind subtype : List Char) : MediaType :=
  let text (cs : List Char) : String := String.ofList (cs.map Char.toLower)
  match Text.cutLast? '+' (String.ofList (subtype.drop 1)) with
  | some (stem, suffix) =>
    { kind := text kind, subtype := text (subtype.take 1 ++ stem.toList),
      suffix := some (Text.lower suffix) }
  | none => { kind := text kind, subtype := text subtype }

/-- The media type that a text declares. -/
def parse? (s : String) : Option MediaType :=
  let (kind, rest) := s.toList.span isToken
  match rest with
  | '/' :: rest =>
    let (subtype, rest) := rest.span isToken
    if kind.isEmpty then none
    else
      match rest with
      | [] => some (ofTokens kind subtype)
      | ';' :: parameters =>
        if subtype.isEmpty || !areParameters parameters then none
        else some (ofTokens kind subtype)
      | _ => none
  | _ => none

/-- The type of JSON documents, and of formats that are written in JSON. -/
def isJson (mediaType : MediaType) : Bool :=
  mediaType.subtype == "json" || mediaType.suffix == some "json"

end MediaType

end FlowEngine.Http
