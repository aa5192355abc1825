import FlowEngine.Workbench.World
/-!
# `FlowEngine.Workbench.Passing` — how time passes

When whoever acts has to wait, the tasks that can go on do so, the first begun first, until all of
them wait; then the streams are served; then the clock jumps to the next moment at which something is
due.  A schedule looks every half second, counted from its start: a look starts the jobs that are
due, and every five minutes it loads the flows anew.

How many jumps and turns a wait may take is bounded; the bounds are far beyond any use.
-/

namespace FlowEngine.Workbench

namespace Ticker

/-- How many milliseconds lie between two looks. -/
def interval : Nat := 500

/-- When the flows are loaded anew. -/
def reloadExpression : String := "0 */5 * * * *"

def nextReload? (moment : Timestamp) : Option Int :=
  (Schedule.Reader.plain.read? reloadExpression).bind fun recurs => recurs moment

def nextDue? (ticker : Ticker) : Option Int :=
  match ticker.table.nextDue?, ticker.reloadDue with
  | some a, some b => some (min a b)
  | some a, none => some a
  | none, due => due

end Ticker

namespace World

/-- The stopwatch at the first look of a schedule that is not before a second. -/
def lookFor (w : World) (origin : Nat) (second : Int) : Nat :=
  let nanos : Int := (second - w.start.seconds) * 1000000000 - w.start.nanos
  let millis : Nat := ((nanos + 999999) / 1000000).toNat
  origin + max 1 ((millis - origin + (Ticker.interval - 1)) / Ticker.interval) * Ticker.interval

def nextLook? (w : World) : Option Nat :=
  w.ticker.bind fun ticker => ticker.nextDue?.map (w.lookFor ticker.origin)

def wakeOf? (task : Task) : Option Nat :=
  match task.standing with
  | .waiting since (.sleep millis) _ => some (since + millis)
  | _ => none

def nextWake? (w : World) : Option Nat := (w.tasks.filterMap wakeOf?).min?

def nextMoment? (w : World) : Option Nat :=
  match w.nextLook?, w.nextWake? with
  | some a, some b => some (min a b)
  | some a, none => some a
  | none, wake => wake

/-- Start the runs of entries that have come due; one that fails is passed over. -/
def startEntries (w : World) (entries : List Schedule.Entry) : World :=
  entries.foldl (fun w entry => (advance (Schedule.startEntry w.engine entry) w).2) w

/-- Load the flows of a schedule anew; if they cannot be read the old jobs stay. -/
def reloadTable (w : World) (table : Schedule.Timetable) :
    Except StoreError Schedule.Timetable × World :=
  match advance (Schedule.reload .plain w.engine.settings.library table) w with
  | (.finished result, w) => (result, w)
  | (_, w) => (.ok table, w)

def tableAfter (before : Schedule.Timetable) :
    Except StoreError Schedule.Timetable → Schedule.Timetable
  | .ok loaded => loaded
  | .error _ => before

/-- Load the flows of a schedule at work anew, and note when that is due again. -/
def reloadNow (w : World) (ticker : Ticker) : World :=
  let (result, w) := w.reloadTable ticker.table
  let table := tableAfter ticker.table result
  { w with ticker := some { ticker with table, reloadDue := Ticker.nextReload? w.time } }

def look (w : World) : World :=
  match w.ticker with
  | none => w
  | some ticker =>
    let (entries, table) := ticker.table.fire w.time
    let ticker := { ticker with table }
    let fired := startEntries { w with ticker := some ticker } entries
    if ticker.reloadDue.any fun second => second ≤ w.time.seconds then fired.reloadNow ticker
    else fired

def serve (w : World) : World :=
  { w with streams := w.streams.map fun pair => (pair.1, pair.2.drain w.bus) }

/-- How many turns tasks may take before time goes on. -/
def maxTurns : Nat := 1000000

def settle : Nat → World → World
  | 0, w => w
  | fuel + 1, w =>
    match w.tasks.findSome? w.advanceTask with
    | some w => settle fuel w
    | none => w

/-- How many times the clock may jump while something is waited for. -/
def maxJumps : Nat := 1000000000

/-- Move the clock on to the moment at which something is due. -/
def jump (w : World) (next : Nat) : World :=
  let later := { w with clock := max w.clock next }
  if w.nextLook? = some next then later.look else later

/-- Let time pass until something has happened, or up to a limit. -/
def passUntil (happened : World → Bool) (limit : Option Nat) : Nat → World → World
  | 0, w => w
  | fuel + 1, w =>
    let w := (settle maxTurns w).serve
    if happened w then w
    else
      match w.nextMoment?, limit with
      | none, none => w
      | none, some last => { w with clock := max w.clock last }
      | some next, none => passUntil happened limit fuel (w.jump next)
      | some next, some last =>
        if next ≤ last then passUntil happened limit fuel (w.jump next)
        else { w with clock := max w.clock last }

def passTo (w : World) (clock : Nat) : World :=
  passUntil (fun _ => false) (some clock) maxJumps w

def passUntilFinished (w : World) (task : Nat) : World :=
  passUntil (fun w => (w.outcome? task).isSome) none maxJumps w

def passUntilIdle (w : World) : World := passUntil isIdle none maxJumps w

/-- The world in which an action can be answered. -/
def awaitTurn (w : World) : Action → World
  | .sleep millis => if millis = 0 then w else w.passTo (w.clock + millis)
  | .await task => w.passUntilFinished task
  | _ => w

/-- Perform a program to its end; time passes while it waits. -/
def perform {α : Type} (program : Program α) (w : World) : α × World :=
  program.runWith (fun action w => answer action (w.awaitTurn action)) w

end World

end FlowEngine.Workbench
