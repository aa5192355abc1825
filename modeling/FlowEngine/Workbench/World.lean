import FlowEngine.Api.Stream
import FlowEngine.Message.Outbox
import FlowEngine.Schedule.Pattern
import FlowEngine.Schedule.Timetable
import FlowEngine.Workbench.Fault
/-!
# `FlowEngine.Workbench.World` — an engine with everything around it in memory

The store, the providers, the listeners and the clock are values of one world.  Time stands still
while something is done and moves only when everything waits.  Runs in the background are tasks: a
task is a program that has not begun, or has come to a wait and goes on when its time has come.

`advance` takes a program to its next wait.
-/

namespace FlowEngine.Workbench

/-- Where a program stands. -/
inductive Standing (α : Type) where
  | finished (result : α)
  /-- It has not begun. -/
  | ready (program : Program α)
  /-- It has been waiting for the answer to an action since a reading of the stopwatch. -/
  | waiting (since : Nat) (action : Action) (next : action.Reply → Program α)

/-- A run in the background. -/
structure Task where
  number : Nat
  standing : Standing (Except FlowError RunReport)

/-- A schedule at work: its jobs, when it was started, and when it loads the flows anew. -/
structure Ticker where
  table : Schedule.Timetable
  origin : Nat
  reloadDue : Option Int

/-- An engine with everything around it. -/
structure World where
  engine : Engine
  /-- The time at the beginning. -/
  start : Timestamp
  /-- The stopwatch: milliseconds since the beginning. -/
  clock : Nat := 0
  store : MemoryStore := {}
  faults : List Fault := []
  outbox : Outbox := {}
  bus : Bus
  /-- The tasks in the order in which they were begun. -/
  tasks : List Task := []
  streams : List (String × Api.Stream) := []
  ticker : Option Ticker := none

namespace World

def timeAt (w : World) (clock : Nat) : Timestamp := w.start.addMillis clock

def time (w : World) : Timestamp := w.timeAt w.clock

/-! ## The answers to actions -/

def list (w : World) (collection : String) (query : ListQuery) : Except StoreError RecordPage :=
  match blocked? w.faults .list collection "" with
  | some e => .error e
  | none => w.store.list collection query

def getOne (w : World) (collection id : String) (options : FetchOptions) :
    Except StoreError Json :=
  match blocked? w.faults .getOne collection id with
  | some e => .error e
  | none => w.store.getOne collection id options

def create (w : World) (collection : String) (data : Json) : Except StoreError Json × World :=
  match blocked? w.faults .create collection "" with
  | some e => (.error e, w)
  | none =>
    let (result, store) := w.store.create collection data
    (result.map (givenBack w.faults collection), { w with store })

def update (w : World) (collection id : String) (data : Json) : Except StoreError Json × World :=
  match blocked? w.faults .update collection id with
  | some e => (.error e, w)
  | none =>
    let (result, store) := w.store.update collection id data
    (result, { w with store })

def send (w : World) (message : SentMessage) : Except TransportError Delivery × World :=
  let (delivery, outbox) := w.outbox.send message
  (.ok delivery, { w with outbox })

def sendMail (w : World) (mail : Mail) : Except TransportError Delivery × World :=
  let (delivery, outbox) := w.outbox.sendMail mail
  (.ok delivery, { w with outbox })

/-- A run sent on its way in the background; it does not begin before everything else waits. -/
def dispatch (w : World) (run : Run) (flow : Flow) (input : Json) : Nat × World :=
  let number := w.tasks.length
  (number, { w with tasks := w.tasks ++ [⟨number, .ready (w.engine.execute run flow input)⟩] })

def outcome? (w : World) (task : Nat) : Option (Except FlowError RunReport) :=
  match w.tasks[task]? with
  | some ⟨_, .finished result⟩ => some result
  | _ => none

/-- What is answered for a task that there is not. -/
def lost : Except FlowError RunReport := .error (.runNotFound "")

/-- The answer to an action, once nothing has to be waited for. -/
def answer : (action : Action) → World → action.Reply × World
  | .list collection query, w => (w.list collection query, w)
  | .getOne collection id options, w => (w.getOne collection id options, w)
  | .create collection data, w => w.create collection data
  | .update collection id data, w => w.update collection id data
  | .sendText recipient text, w => w.send (.text recipient text)
  | .sendMedia recipient media, w => w.send (.media recipient media)
  | .sendMail mail, w => w.sendMail mail
  | .now, w => (w.time, w)
  | .elapsed, w => (w.clock, w)
  | .sleep _, w => ((), w)
  | .publish event, w => ((), { w with bus := w.bus.publish event })
  | .dispatch run flow input, w => w.dispatch run flow input
  | .await task, w => ((w.outcome? task).getD lost, w)

def isReady (w : World) (since : Nat) : Action → Bool
  | .sleep millis => since + millis ≤ w.clock
  | .await task => (w.outcome? task).isSome
  | _ => true

/-! ## Programs -/

/-- Take a program to its next wait. -/
def advance {α : Type} : Program α → World → Standing α × World
  | .done a, w => (.finished a, w)
  | .act action next, w =>
    if w.isReady w.clock action then
      let (reply, w) := answer action w
      advance (next reply) w
    else (.waiting w.clock action next, w)

/-- Take a program from where it stands to its next wait, if it can go on. -/
def resume? {α : Type} (w : World) : Standing α → Option (Standing α × World)
  | .finished _ => none
  | .ready program => some (advance program w)
  | .waiting since action next =>
    if w.isReady since action then
      let (reply, w) := answer action w
      some (advance (next reply) w)
    else none

def setStanding (w : World) (number : Nat) (standing : Standing (Except FlowError RunReport)) :
    World :=
  { w with tasks := w.tasks.map fun task =>
      if task.number = number then { task with standing } else task }

def advanceTask (w : World) (task : Task) : Option World :=
  (w.resume? task.standing).map fun (standing, w) => w.setStanding task.number standing

def Standing.isFinished {α : Type} : Standing α → Bool
  | .finished _ => true
  | _ => false

def isIdle (w : World) : Bool := w.tasks.all fun task => Standing.isFinished task.standing

end World

end FlowEngine.Workbench
