import FlowEngine.Workbench.Passing
import FlowEngine.Workbench.Probe
/-!
# `FlowEngine.Workbench.Session` — working with an engine step by step

A session is a world together with what whoever works with it holds in hand: a place among the
events, the runs that have been started and not yet waited for, and the steps that are being
recorded.
-/

namespace FlowEngine.Workbench

/-- A world, and what is held in hand. -/
structure Session where
  world : World
  /-- The place among the events up to which they have been read. -/
  heard : Nat := 0
  /-- The tasks that have been started and not yet waited for, the latest first. -/
  started : List Nat := []
  /-- The steps that are being recorded, by the name they were given. -/
  recording : List (String × Ledger.OpenStep) := []

namespace Session

/-- A session at a time, with settings and with a messaging provider that may take nothing. -/
def begun (settings : Settings) (time : Timestamp) (rejecting : Bool) (faults : List Fault) :
    Session :=
  { world :=
      { engine := { settings, registry := Probe.registry }
        start := time
        faults
        outbox := { rejecting }
        bus := Bus.ofCapacity settings.eventBuffer } }

def perform {α : Type} (s : Session) (program : Program α) : α × Session :=
  let performed := s.world.perform program
  (performed.1, { s with world := performed.2 })

def engine (s : Session) : Engine := s.world.engine

/-- Put records into the store, past its faults. -/
def seed (s : Session) (collection : String) (records : List Json) : Session :=
  let store := records.foldl (fun store record => store.seed collection record) s.world.store
  { s with world := { s.world with store } }

def setFaults (s : Session) (faults : List Fault) : Session :=
  { s with world := { s.world with faults } }

/-! ## Runs -/

def startRun (s : Session) (flow : Flow) (triggerType : TriggerType) (input : Json)
    (testMode : Bool) : Except FlowError Run × Session :=
  match s.perform (Engine.startRun s.engine flow triggerType input testMode) with
  | (.error e, s) => (.error e, s)
  | (.ok (run, task), s) => (.ok run, { s with started := task :: s.started })

def awaitAll : List Nat → Program (List (Except FlowError RunReport))
  | [] => return []
  | task :: rest => do
    let result ← Program.await task
    return result :: (← awaitAll rest)

def join (s : Session) : List (Except FlowError RunReport) × Session :=
  s.perform (awaitAll s.started.reverse) |>.map id fun s => { s with started := [] }

def beginStep (s : Session) (name runId : String) (node : Node) (input : Json) :
    RunStep × Session :=
  let ledger := s.engine.settings.ledger
  let (opened, s) := s.perform (ledger.beginStep runId node.id node.kind input)
  (opened.step, { s with recording := (name, opened) :: s.recording.filter (·.1 != name) })

def finishStep (s : Session) (name : String) (result : Except NodeError Json) :
    Option RunStep × Session :=
  match s.recording.find? (·.1 == name) with
  | none => (none, s)
  | some (_, opened) =>
    let (step, s) := s.perform (s.engine.settings.ledger.finishStep opened result)
    (some step, { s with recording := s.recording.filter (·.1 != name) })

def noticesOf (events : List Event) : List Notice :=
  events.filterMap fun event =>
    match event with
    | .nodeNotice _ _ notice => some notice
    | _ => none

/-- Execute a node outside of any run, with what it says; nothing if nobody serves its type. -/
def executeNode (s : Session) (kind : String) (config : Json.Members) (data : Json) :
    Option (Except NodeError NodeOutput × List Notice) × Session :=
  match s.engine.registry.resolve? kind with
  | none => (none, s)
  | some handler =>
    let program := (handler.execute (NodeContext.detached kind config data)).capture
    let ((result, events), s) := s.perform program
    (some (result, noticesOf events), s)

/-! ## Events -/

def publish (s : Session) (event : Event) : Session := (s.perform (Program.publish event)).2

/-- The events since the last reading, and how many were lost. -/
def readEvents (s : Session) : (Nat × List Event) × Session :=
  let bus := s.world.bus
  ((bus.lost s.heard, bus.heardFrom s.heard), { s with heard := bus.position })

/-- Open a stream of events under a name; the status of the handshake. -/
def openStream (s : Session) (name path : String) (frames : List Api.ClientFrame) :
    Nat × Session :=
  match Api.Stream.opened { method := "GET", path } s.world.bus with
  | .error status => (status, s)
  | .ok stream =>
    let streams := (name, stream.receive frames) :: s.world.streams.filter (·.1 != name)
    (101, { s with world := { s.world with streams } })

/-- What has been sent on a stream since the last reading, and whether it has ended. -/
def readStream (s : Session) (name : String) :
    Option (List Api.ServerFrame × Bool) × Session :=
  let world := s.world.serve
  match world.streams.find? (·.1 == name) with
  | none => (none, s)
  | some (_, stream) =>
    let (frames, stream) := stream.read
    let streams := (name, stream) :: world.streams.filter (·.1 != name)
    (some (frames, stream.ended), { s with world := { world with streams } })

/-! ## Time and schedules -/

def advance (s : Session) (millis : Nat) : Session :=
  { s with world := (s.world.passTo (s.world.clock + millis)).settle World.maxTurns }

def table (s : Session) : Schedule.Timetable := (s.world.ticker.map Ticker.table).getD {}

def jobCount (s : Session) : Nat := s.table.size

/-- Load the flows into the schedule at work, or else into one that is not; how many jobs it has
then, and what was wrong. -/
def reloadSchedule (s : Session) : Except StoreError Nat × Nat × Session :=
  let reloaded := s.world.reloadTable s.table
  let table := World.tableAfter s.table reloaded.1
  let ticker := reloaded.2.ticker.map fun ticker => { ticker with table }
  (reloaded.1.map Schedule.Timetable.size, table.size,
    { s with world := { reloaded.2 with ticker } })

/-- Set a schedule to work; without its flows if they cannot be read. -/
def startSchedule (s : Session) : Session :=
  let (result, world) := s.world.reloadTable {}
  let ticker : Ticker :=
    { table := World.tableAfter {} result, origin := world.clock,
      reloadDue := Ticker.nextReload? world.time }
  { s with world := { world with ticker := some ticker } }

def stopSchedule (s : Session) : Session := { s with world := { s.world with ticker := none } }

/-! ## The web interface -/

/-- Answer a request; the runs that it has started end before anything else is done. -/
def request (s : Session) (request : Api.Request) : Api.Response × Session :=
  let answered := s.perform (Api.answer s.engine request)
  (answered.1, { answered.2 with world := answered.2.world.passUntilIdle })

end Session

end FlowEngine.Workbench
