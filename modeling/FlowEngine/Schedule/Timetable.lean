import FlowEngine.Engine
import FlowEngine.Schedule.Expression
/-!
# `FlowEngine.Schedule.Timetable` — the jobs that start flows

A timetable holds one job for each start that the active flows ask for and whose expression can be
read.  Jobs are numbered, and the timetable knows the number of the latest job under each key; to
load the flows anew is to take out the jobs that it knows and to put in new ones.
-/

namespace FlowEngine.Schedule

/-- A job and the second at which it is due, if it ever is. -/
structure Job where
  number : Nat
  entry : Entry
  recurs : Recurrence
  due : Option Int

/-- The jobs that start flows. -/
structure Timetable where
  jobs : List Job := []
  /-- The latest job under each key. -/
  known : List (String × Nat) := []
  /-- How many jobs there have been. -/
  made : Nat := 0

namespace Timetable

/-- How many keys are scheduled. -/
def size (table : Timetable) : Nat := table.known.length

/-- Take out the jobs that are known. -/
def clear (table : Timetable) : Timetable :=
  { table with
    jobs := table.jobs.filter fun job => !(table.known.any fun pair => pair.2 == job.number)
    known := [] }

/-- Put in a job for an entry; one whose expression cannot be read is passed over. -/
def add (reader : Reader) (moment : Timestamp) (table : Timetable) (entry : Entry) : Timetable :=
  match reader.read? entry.expression with
  | none => table
  | some recurs =>
    { jobs := table.jobs ++ [⟨table.made, entry, recurs, recurs moment⟩]
      known := (entry.key, table.made) :: table.known.filter fun pair => pair.1 != entry.key
      made := table.made + 1 }

/-- The timetable of flows, made at a moment. -/
def load (reader : Reader) (table : Timetable) (flows : List Flow) (moment : Timestamp) :
    Timetable :=
  (flows.flatMap entries).foldl (add reader moment) table.clear

def nextDue? (table : Timetable) : Option Int := (table.jobs.filterMap Job.due).min?

def Job.isDue (moment : Timestamp) (job : Job) : Bool :=
  match job.due with
  | some second => second ≤ moment.seconds
  | none => false

/-- The entries of the jobs that are due at a moment, and the timetable in which these jobs are due
again later. -/
def fire (table : Timetable) (moment : Timestamp) : List Entry × Timetable :=
  ((table.jobs.filter (Job.isDue moment)).map Job.entry,
    { table with jobs := table.jobs.map fun job =>
        if Job.isDue moment job then { job with due := job.recurs moment } else job })

end Timetable

/-! ## Programs -/

def reload (reader : Reader) (library : Library) (table : Timetable) :
    Program (Except StoreError Timetable) := do
  match ← library.listActive with
  | .error e => return .error e
  | .ok flows => return .ok (table.load reader flows (← Program.now))

/-- The input of a run whose trigger has no sample data. -/
def defaultInput (moment : Timestamp) : Json := .object [("triggered_at", moment.toJson)]

/-- Start the run of an entry, if its flow is still there and active.  The flow is read again, so the
run uses the latest canvas. -/
def startEntry (engine : Engine) (entry : Entry) : Program (Except FlowError (Option Run)) := do
  match ← engine.settings.library.get? entry.flowId with
  | .error e => return .error (.store e)
  | .ok none => return .ok none
  | .ok (some flow) =>
    if !flow.isActive then return .ok none
    else
      let input ← match entry.payload with
        | some payload => pure payload
        | none => defaultInput <$> Program.now
      match ← Engine.startRun engine flow .cron input false with
      | .error e => return .error e
      | .ok (run, _) => return .ok (some run)

end FlowEngine.Schedule
