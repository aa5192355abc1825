import FlowEngine.Text.Split
/-!
# `FlowEngine.CommandLine.Files` — files and directories

Files are kept by their places.  A place is told from the directory where the program works: a list
of names with the last one first, in which `..` stands only for directories above, and an empty name
at the end for the root.  A directory is there if a file is in it; so are the directories above and
the root, of which nothing else is known.

A path is followed name by name, and every name on the way has to be a directory that is there, even
if `..` leaves it again.  The last name may be new, but a path that ends in a slash or in dots means a
directory.
-/

namespace FlowEngine.CommandLine

/-- Why a file cannot be reached. -/
inductive FileError where
  | missing
  | notDirectory
  | isDirectory
  | nameTooLong
  | unusableName
deriving DecidableEq, Repr

def FileError.message : FileError → String
  | missing => "No such file or directory (os error 2)"
  | notDirectory => "Not a directory (os error 20)"
  | isDirectory => "Is a directory (os error 21)"
  | nameTooLong => "File name too long (os error 36)"
  | unusableName => "file name contained an unexpected NUL byte"

/-- Where a file or directory is: names, the last one first. -/
abbrev Place := List String

namespace Place

def above : Place → Place
  | [] => [".."]
  | ".." :: place => ".." :: ".." :: place
  | [""] => [""]
  | _ :: place => place

/-- A directory that is there whatever the files: the one where the program works, one above it, or
the root. -/
def isGiven (place : Place) : Bool := place.all (· == "..") || place == [""]

end Place

def pathNames (path : String) : List String := (Text.splitAt '/' path).filter (!·.isEmpty)

def pathStart (path : String) : Place := if Text.startsWith "/" path then [""] else []

/-- Files by their places. -/
structure Files where
  entries : List (Place × String) := []
deriving DecidableEq, Repr

namespace Files

def get? (files : Files) (place : Place) : Option String :=
  (files.entries.find? fun entry => entry.1 == place).map Prod.snd

def set (files : Files) (place : Place) (text : String) : Files :=
  { entries := (place, text) :: files.entries.filter fun entry => entry.1 != place }

def hasDirectory (files : Files) (place : Place) : Bool :=
  place.isGiven || files.entries.any fun entry =>
    entry.1 != place && (entry.1.drop (entry.1.length - place.length) == place)

/-- The most bytes that a name may have. -/
def nameLimit : Nat := 255

/-- The most bytes that a path may have. -/
def pathLimit : Nat := 4095

def enter (files : Files) (place : Place) (name : String) : Except FileError Place :=
  if name = "." then .ok place
  else if name = ".." then .ok place.above
  else if nameLimit < name.utf8ByteSize then .error .nameTooLong
  else if files.hasDirectory (name :: place) then .ok (name :: place)
  else if (files.get? (name :: place)).isSome then .error .notDirectory
  else .error .missing

/-- The place of the file that the last name of a path means in a directory. -/
def fileIn (files : Files) (path : String) (place : Place) (name : String) :
    Except FileError Place :=
  if name = "." || name = ".." || path.toList.getLast? = some '/' then .error .isDirectory
  else if nameLimit < name.utf8ByteSize then .error .nameTooLong
  else if files.hasDirectory (name :: place) then .error .isDirectory
  else .ok (name :: place)

/-- The place of the file that a path means, be it there or not. -/
def locate (files : Files) (path : String) : Except FileError Place :=
  if path.toList.any (·.toNat == 0) then .error .unusableName
  else if path.isEmpty then .error .missing
  else if pathLimit < path.utf8ByteSize then .error .nameTooLong
  else
    match (pathNames path).reverse with
    | [] => .error .isDirectory
    | name :: before => do
      files.fileIn path (← before.reverse.foldlM files.enter (pathStart path)) name

def read? (files : Files) (path : String) : Option String :=
  match files.locate path with
  | .ok place => files.get? place
  | .error _ => none

def write (files : Files) (path text : String) : Except FileError Files :=
  (files.locate path).map fun place => files.set place text

/-- Files in the directory where the program works, and in directories in it, by their paths. -/
def ofList (files : List (String × String)) : Files :=
  { entries := files.map fun file => ((pathNames file.1).reverse, file.2) }

end Files

end FlowEngine.CommandLine
