import FlowEngine.Text.Blank
import FlowEngine.Text.Numeral
import FlowEngine.Text.Split
import FlowEngine.Time.Calendar
/-!
# `FlowEngine.Time.Timestamp` — moments in universal time

A moment is a count of seconds since 1970-01-01T00:00:00Z and of nanoseconds in that second; a leap
second is the end of the second before it, with a count of nanoseconds of a thousand million or more,
so it sorts after that second and before the next.

Moments are written in the form of RFC 3339 with `Z` and with 0, 3, 6 or 9 digits of fraction, the
fewest that are exact.  Reading is wider: any offset, `UTC`, small letters, a blank instead of `T`,
blanks between the parts, fields without their leading zeros.  A moment outside the years from -262143
to 262142 of universal time is not read, whatever its offset.
-/

namespace FlowEngine

/-- A moment in universal time. -/
structure Timestamp where
  /-- Seconds since the first of January 1970. -/
  seconds : Int
  /-- Nanoseconds in that second, from a thousand million on in a leap second. -/
  nanos : Nat
deriving DecidableEq, Repr

namespace Timestamp

def perSecond : Nat := 1000000000

def isBefore (s t : Timestamp) : Bool :=
  s.seconds < t.seconds || (s.seconds == t.seconds && s.nanos < t.nanos)

def order (s t : Timestamp) : Ordering :=
  if s.isBefore t then .lt else if t.isBefore s then .gt else .eq

def latest (s t : Timestamp) : Timestamp := if s.isBefore t then t else s

def addMillis (t : Timestamp) (millis : Nat) : Timestamp :=
  if perSecond ≤ t.nanos && t.nanos + millis * 1000000 < 2 * perSecond then
    ⟨t.seconds, t.nanos + millis * 1000000⟩
  else
    let nanos := t.nanos % perSecond + millis * 1000000
    ⟨t.seconds + (nanos / perSecond : Nat), nanos % perSecond⟩

/-! ## Writing -/

/-- Four digits, or a sign and at least four digits outside the first ten thousand years. -/
def yearText (year : Int) : String :=
  if 0 ≤ year && year ≤ 9999 then Text.padded 4 year.toNat
  else (if year < 0 then "-" else "+") ++ Text.padded 4 year.natAbs

/-- The fraction of a second, with its point, if there is any. -/
def fractionText (nanos : Nat) : String :=
  if nanos = 0 then ""
  else if nanos % 1000000 = 0 then "." ++ Text.padded 3 (nanos / 1000000)
  else if nanos % 1000 = 0 then "." ++ Text.padded 6 (nanos / 1000)
  else "." ++ Text.padded 9 nanos

def text (t : Timestamp) : String :=
  let date := Date.ofDays (t.seconds / 86400)
  let clock := (t.seconds % 86400).toNat
  let second := clock % 60 + (if perSecond ≤ t.nanos then 1 else 0)
  yearText date.year ++ "-" ++ Text.padded 2 date.month ++ "-" ++ Text.padded 2 date.day ++ "T" ++
    Text.padded 2 (clock / 3600) ++ ":" ++ Text.padded 2 (clock / 60 % 60) ++ ":" ++
    Text.padded 2 second ++ fractionText (t.nanos % perSecond) ++ "Z"

/-! ## Reading -/

def skipBlanks (cs : List Char) : List Char := cs.dropWhile Text.isBlank

/-- A number of one to `width` digits behind leading blanks, and what follows it. -/
def field? (width : Nat) (cs : List Char) : Option (Nat × List Char) :=
  let cs := skipBlanks cs
  let ds := (cs.take width).takeWhile Char.isDigit
  if ds.isEmpty then none else some (Text.digitsValue ds, cs.drop ds.length)

/-- A year: up to four digits, or a sign and any number of digits. -/
def year? (cs : List Char) : Option (Int × List Char) :=
  match skipBlanks cs with
  | '-' :: rest =>
    let ds := rest.takeWhile Char.isDigit
    if ds.isEmpty then none else some (-(Text.digitsValue ds : Int), rest.drop ds.length)
  | '+' :: rest =>
    let ds := rest.takeWhile Char.isDigit
    if ds.isEmpty then none else some (Text.digitsValue ds, rest.drop ds.length)
  | rest => (field? 4 rest).map fun (n, rest) => ((n : Int), rest)

/-- A given character behind leading blanks, and what follows it. -/
def mark? (c : Char) (cs : List Char) : Option (List Char) :=
  match skipBlanks cs with
  | d :: rest => if c = d then some rest else none
  | [] => none

/-- The fraction of a second in nanoseconds; digits behind the ninth are dropped. -/
def fraction? (cs : List Char) : Option (Nat × List Char) :=
  match cs with
  | '.' :: rest =>
    let ds := rest.takeWhile Char.isDigit
    if ds.isEmpty then none
    else
      let kept := ds.take 9
      some (Text.digitsValue kept * Nat.pow 10 (9 - kept.length), rest.drop ds.length)
  | rest => some (0, rest)

def twoDigits? : List Char → Option (Nat × List Char)
  | a :: b :: rest => if a.isDigit && b.isDigit then some (Text.digitsValue [a, b], rest) else none
  | _ => none

/-- Hours and minutes of an offset, in seconds. -/
def offsetSize? (cs : List Char) : Option (Nat × List Char) :=
  match twoDigits? cs with
  | none => none
  | some (hours, rest) =>
    match twoDigits? (rest.dropWhile fun c => c == ':' || Text.isBlank c) with
    | none => none
    | some (minutes, rest) =>
      if minutes < 60 && hours < 24 then some (hours * 3600 + minutes * 60, rest) else none

/-- An offset from universal time in seconds, and what follows it. -/
def offset? (cs : List Char) : Option (Int × List Char) :=
  match skipBlanks cs with
  | [] => none
  | c :: rest =>
    if c = 'Z' || c = 'z' then some (0, rest)
    else if c = '+' then (offsetSize? rest).map fun (n, rest) => ((n : Int), rest)
    else if c = '-' || c.toNat = 0x2212 then
      (offsetSize? rest).map fun (n, rest) => (-(n : Int), rest)
    else if ((c :: rest).take 3).map Char.toLower = "utc".toList then some (0, (c :: rest).drop 3)
    else none

def firstYear : Int := -262143

def lastYear : Int := 262142

def isInRange (t : Timestamp) : Bool :=
  Date.toDays ⟨firstYear, 1, 1⟩ * 86400 ≤ t.seconds &&
    t.seconds < Date.toDays ⟨lastYear + 1, 1, 1⟩ * 86400

def date? (cs : List Char) : Option (Date × List Char) := do
  let (year, cs) ← year? cs
  let cs ← mark? '-' cs
  let (month, cs) ← field? 2 cs
  let cs ← mark? '-' cs
  let (day, cs) ← field? 2 cs
  let date : Date := ⟨year, month, day⟩
  if date.isValid && firstYear ≤ year && year ≤ lastYear then some (date, cs) else none

/-- A time of day in seconds and nanoseconds, and what follows it. -/
def clock? (cs : List Char) : Option (Nat × Nat × List Char) := do
  let (hour, cs) ← field? 2 cs
  let cs ← mark? ':' cs
  let (minute, cs) ← field? 2 cs
  let cs ← mark? ':' cs
  let (second, cs) ← field? 2 cs
  let (nanos, cs) ← fraction? cs
  if hour < 24 && minute < 60 && second ≤ 60 then
    let leap := second == 60
    let inMinute := if leap then 59 else second
    some (hour * 3600 + minute * 60 + inMinute, nanos + (if leap then perSecond else 0), cs)
  else none

def parse? (s : String) : Option Timestamp := do
  let (date, cs) ← date? s.toList
  let cs ← match cs with
    | c :: rest => if c = 'T' || c = 't' || c = ' ' then some rest else none
    | [] => none
  let (clock, nanos, cs) ← clock? cs
  let (offset, cs) ← offset? cs
  let moment : Timestamp := ⟨date.toDays * 86400 + clock - offset, nanos⟩
  if (skipBlanks cs).isEmpty && moment.isInRange then some moment else none

end Timestamp

end FlowEngine
