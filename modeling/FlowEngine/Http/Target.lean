import FlowEngine.Http.Percent
/-!
# `FlowEngine.Http.Target` — where a URL leads

The text of a URL is read by the rules for the web: blanks at both ends, tabs and line breaks are
dropped; the scheme must be one of the web, and the host begins behind it and behind all slashes that
follow; `#` begins the fragment, which is not sent, and `?` the query; a backslash counts as a slash;
segments of one or two dots, also when the dots are escaped, move in the path; and a character that a
path cannot hold is escaped.  Which texts name a host is up to the client that sends the request.
-/

namespace FlowEngine.Http

/-- What sends requests to the hosts that it can name. -/
structure Client where
  /-- The text between the scheme and the path of a URL names a host. -/
  isAuthority : String → Bool

/-- A client for hosts of letters, digits, dots and hyphens, with or without a port. -/
def Client.plain : Client where
  isAuthority authority :=
    let cs := authority.toList
    let port := cs.dropWhile (· != ':')
    (cs.takeWhile (· != ':')).all (fun c => c.isAlphanum || c == '.' || c == '-') &&
      (port.isEmpty || (Text.natural? (port.drop 1)).any (· < 65536))

/-- Where a request goes. -/
structure Target where
  /-- The scheme and the host. -/
  origin : String
  path : String
  query : List (String × String) := []
deriving DecidableEq, Repr

namespace Target

/-- A character that is dropped wherever it stands in a URL. -/
def isDropped (c : Char) : Bool := c == '\t' || c == '\n' || c == '\r'

/-- A character that is dropped at both ends of a URL. -/
def isPadding (c : Char) : Bool := c.toNat ≤ 32

/-- The characters that count, up to the end of a URL. -/
def significant (cs : List Char) : List Char :=
  ((cs.reverse.dropWhile isPadding).reverse).filter fun c => !isDropped c

/-! ## The host -/

/-- A backslash counts as a slash. -/
def slashed (c : Char) : Char := if c = '\\' then '/' else c

def endsHost (c : Char) : Bool := slashed c == '/' || c == '?' || c == '#'

def schemeOf (cs : List Char) : String := Text.lower (String.ofList (cs.takeWhile (· != ':')))

/-- What stands behind the scheme and the slashes that follow it. -/
def behindScheme (cs : List Char) : List Char :=
  ((cs.dropWhile (· != ':')).drop 1).dropWhile fun c => slashed c == '/'

/-- The host, as it is written, and whatever else stands in front of the path. -/
def authorityOf (cs : List Char) : String :=
  String.ofList ((behindScheme cs).takeWhile fun c => !endsHost c)

def behindHost (cs : List Char) : List Char := (behindScheme cs).dropWhile fun c => !endsHost c

/-- The scheme is one of the web, and there is a host to which the client can send something. -/
def isReachable (client : Client) (cs : List Char) : Bool :=
  ["http", "https"].contains (schemeOf cs) && authorityOf cs != "" &&
    client.isAuthority (authorityOf cs)

/-! ## The path and the query -/

/-- The characters of the path, of what stands behind the host. -/
def pathOf (cs : List Char) : List Char := (cs.takeWhile (· != '#')).takeWhile (· != '?')

def queryOf (cs : List Char) : List (String × String) :=
  queryPairs (String.ofList (((cs.takeWhile (· != '#')).dropWhile (· != '?')).drop 1))

/-- A character that a path cannot hold. -/
def isEscaped (c : Char) : Bool :=
  c.toNat ≤ 32 || 127 ≤ c.toNat ||
    ['"', '#', '<', '>', '?', '\x60', '\x7b', '\x7d'].contains c

/-- The segment means the place where it stands. -/
def isHere (segment : String) : Bool := segment == "." || Text.lower segment == "%2e"

/-- The segment means the place above. -/
def isAbove (segment : String) : Bool :=
  ["..", ".%2e", "%2e.", "%2e%2e"].contains (Text.lower segment)

/-- Follow segments from a place, which is given by its segments in reverse. -/
def follow : List String → List String → List String
  | place, [] => place
  | place, [segment] =>
    if isAbove segment then "" :: place.drop 1
    else if isHere segment then "" :: place
    else percentEncode isEscaped segment :: place
  | place, segment :: rest =>
    if isAbove segment then follow (place.drop 1) rest
    else if isHere segment then follow place rest
    else follow (percentEncode isEscaped segment :: place) rest

def spelled (cs : List Char) : List String := Text.splitAt '/' (String.ofList (cs.map slashed))

def resolvedPath (cs : List Char) : String :=
  let segments := follow [] ((spelled cs).drop 1)
  if segments.isEmpty then "/" else String.join (segments.reverse.map fun s => "/" ++ s)

/-- Where a URL leads, if it names a host of the web. -/
def ofUrl? (client : Client) (url : String) : Option Target :=
  let cs := significant (url.toList.dropWhile isPadding)
  if isReachable client cs then
    some
      { origin := schemeOf cs ++ "://" ++ authorityOf cs
        path := resolvedPath (pathOf (behindHost cs)), query := queryOf (behindHost cs) }
  else none

end Target

end FlowEngine.Http
