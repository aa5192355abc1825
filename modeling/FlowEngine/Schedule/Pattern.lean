import FlowEngine.Schedule.Expression
import FlowEngine.Text.Numeral
import FlowEngine.Text.Split
/-!
# `FlowEngine.Schedule.Pattern` — which seconds a plain expression names

An expression has six fields: second, minute, hour, day of the month, month and day of the week,
Sunday being 0 or 7.  In a plain one each field is `*`, a step `*/n`, or a list of numbers and
ranges.  A second is named if every field admits it, all of it in universal time.

There is more that an expression may say, such as names of months, the last day of one, or steps
within a range.  Whoever keeps jobs by it reads them with a reader of his own.
-/

namespace FlowEngine.Schedule

/-- The seconds that a plain expression names; the lists are ordered. -/
structure Pattern where
  seconds : List Nat
  minutes : List Nat
  hours : List Nat
  days : List Nat
  months : List Nat
  weekdays : List Nat
deriving DecidableEq, Repr

namespace Pattern

/-! ## Reading -/

def span (low high : Nat) : List Nat := List.range' low (high + 1 - low)

def bounded? (low high : Nat) (s : String) : Option Nat :=
  (Text.natural? s.toList).filter fun n => low ≤ n && n ≤ high

/-- One part of a list: a number or a range. -/
def readPart? (low high : Nat) (s : String) : Option (List Nat) :=
  match Text.cutFirst? '-' s with
  | none => (bounded? low high s).map fun n => [n]
  | some (first, last) =>
    match bounded? low high first, bounded? low high last with
    | some a, some b => if a ≤ b then some (span a b) else none
    | _, _ => none

def readParts? (low high : Nat) : List String → Option (List Nat)
  | [] => some []
  | s :: rest =>
    match readPart? low high s, readParts? low high rest with
    | some xs, some ys => some (xs ++ ys)
    | _, _ => none

def readField? (low high : Nat) (s : String) : Option (List Nat) :=
  if s = "*" then some (span low high)
  else
    match Text.dropStart? "*/" s with
    | some step =>
      (bounded? 1 (high + 1) step).map fun n =>
        (span low high).filter fun x => (x - low) % n == 0
    | none =>
      (readParts? low high (Text.splitAt ',' s)).map fun named =>
        (span low high).filter named.contains

def fieldsOf (expression : String) : List String :=
  let spaced := expression.toList.map fun c => if Text.isBlank c then ' ' else c
  (Text.splitAt ' ' (String.ofList spaced)).filter (!·.isEmpty)

def parse? (expression : String) : Option Pattern :=
  match fieldsOf expression with
  | [second, minute, hour, day, month, weekday] => do
    let seconds ← readField? 0 59 second
    let minutes ← readField? 0 59 minute
    let hours ← readField? 0 23 hour
    let days ← readField? 1 31 day
    let months ← readField? 1 12 month
    let weekdays ← readField? 0 7 weekday
    some { seconds, minutes, hours, days, months, weekdays := weekdays.map (· % 7) }
  | _ => none

/-! ## The next second -/

def admitsDay (p : Pattern) (day : Int) : Bool :=
  let date := Date.ofDays day
  p.days.contains date.day && p.months.contains date.month && p.weekdays.contains (Date.weekday day)

/-- The first admitted second of a day that is not before `clock`. -/
def firstFrom? (p : Pattern) (clock : Nat) : Option Nat :=
  p.hours.findSome? fun h =>
    if (h + 1) * 3600 ≤ clock then none
    else p.minutes.findSome? fun m =>
      if h * 3600 + (m + 1) * 60 ≤ clock then none
      else p.seconds.findSome? fun s =>
        let second := h * 3600 + m * 60 + s
        if second < clock then none else some second

/-- The first admitted second from a second of some day on, within so many days. -/
def searchFrom? (p : Pattern) : Nat → Int → Nat → Option Int
  | 0, _, _ => none
  | fuel + 1, day, clock =>
    let here := if p.admitsDay day then p.firstFrom? clock else none
    match here with
    | some second => some (day * 86400 + second)
    | none => searchFrom? p fuel (day + 1) 0

/-- How many days are searched: a date and a day of the week meet again within forty years. -/
def horizon : Nat := 366 * 41

/-- The first admitted second behind a moment, counted from 1970. -/
def nextAfter? (p : Pattern) (moment : Timestamp) : Option Int :=
  let second := moment.seconds + 1
  p.searchFrom? horizon (second / 86400) (second % 86400).toNat

end Pattern

/-- What reads plain expressions and no others. -/
def Reader.plain : Reader where
  read? expression := (Pattern.parse? expression).map Pattern.nextAfter?

end FlowEngine.Schedule
