import FlowEngine.Error
import FlowEngine.Event.Basic
import FlowEngine.Message
import FlowEngine.Run.Report
import FlowEngine.Store.Query
/-!
# `FlowEngine.Program` — what the engine asks of the world

The engine touches nothing itself.  Whatever it does is a `Program`: a tree of actions in which each
answer decides how to go on.  An action asks the record store, hands a message to a provider, reads
the clock, waits, publishes an event, or sends a run on its way in the background.  Who performs the
actions is left open: a store may fail at any call, and the actions of several programs may be
interleaved in any order.

`Program.runWith` performs a program in one go with a given way to answer each action.  `capture`
collects what a program would publish.
-/

namespace FlowEngine

/-- Something asked of the world. -/
inductive Action where
  | list (collection : String) (query : ListQuery)
  | getOne (collection id : String) (options : FetchOptions)
  | create (collection : String) (data : Json)
  | update (collection id : String) (data : Json)
  | sendText (recipient text : String)
  | sendMedia (recipient : String) (media : MediaMessage)
  | sendMail (mail : Mail)
  /-- Read the clock on the wall. -/
  | now
  /-- Read the stopwatch, in milliseconds. -/
  | elapsed
  | sleep (millis : Nat)
  | publish (event : Event)
  /-- Execute a queued run in the background. -/
  | dispatch (run : Run) (flow : Flow) (input : Json)
  /-- Wait for a run in the background. -/
  | await (task : Nat)

/-- What an action is answered with. -/
def Action.Reply : Action → Type
  | list _ _ => Except StoreError RecordPage
  | getOne _ _ _ => Except StoreError Json
  | create _ _ => Except StoreError Json
  | update _ _ _ => Except StoreError Json
  | sendText _ _ => Except TransportError Delivery
  | sendMedia _ _ => Except TransportError Delivery
  | sendMail _ => Except TransportError Delivery
  | now => Timestamp
  | elapsed => Nat
  | sleep _ => Unit
  | publish _ => Unit
  | dispatch _ _ _ => Nat
  | await _ => Except FlowError RunReport

/-- A tree of actions with a result at each end. -/
inductive Program (α : Type) : Type where
  | done (result : α)
  | act (action : Action) (next : action.Reply → Program α)

namespace Program

variable {α β : Type}

def andThen : Program α → (α → Program β) → Program β
  | done a, next => next a
  | act action k, next => act action fun reply => (k reply).andThen next

instance : Monad Program where
  pure := done
  bind := andThen

def perform (action : Action) : Program action.Reply := act action done

/-- The result of a program, when every action is answered in turn by one and the same rule. -/
def runWith {σ : Type} (answer : (action : Action) → σ → action.Reply × σ) :
    Program α → σ → α × σ
  | done a, s => (a, s)
  | act action k, s =>
    let (reply, s) := answer action s
    (k reply).runWith answer s

/-- The program without its publications, which come with the result. -/
def capture : Program α → Program (α × List Event)
  | done a => done (a, [])
  | act (.publish event) k => (k ()).capture.andThen fun (a, events) => done (a, event :: events)
  | act action k => act action fun reply => (k reply).capture

/-! ## Single actions -/

def list (collection : String) (query : ListQuery) : Program (Except StoreError RecordPage) :=
  perform (.list collection query)

def getOne (collection id : String) (options : FetchOptions) : Program (Except StoreError Json) :=
  perform (.getOne collection id options)

def create (collection : String) (data : Json) : Program (Except StoreError Json) :=
  perform (.create collection data)

/-- A record with some of its members changed. -/
def update (collection id : String) (data : Json) : Program (Except StoreError Json) :=
  perform (.update collection id data)

def sendText (recipient text : String) : Program (Except TransportError Delivery) :=
  perform (.sendText recipient text)

def sendMedia (recipient : String) (media : MediaMessage) :
    Program (Except TransportError Delivery) :=
  perform (.sendMedia recipient media)

def sendMail (mail : Mail) : Program (Except TransportError Delivery) := perform (.sendMail mail)

/-- The clock on the wall. -/
def now : Program Timestamp := perform .now

/-- The stopwatch, in milliseconds. -/
def elapsed : Program Nat := perform .elapsed

def sleep (millis : Nat) : Program Unit := perform (.sleep millis)

def publish (event : Event) : Program Unit := perform (.publish event)

/-- Execute a queued run in the background; the answer is the number of the task. -/
def dispatch (run : Run) (flow : Flow) (input : Json) : Program Nat :=
  perform (.dispatch run flow input)

def await (task : Nat) : Program (Except FlowError RunReport) := perform (.await task)

end Program

end FlowEngine
